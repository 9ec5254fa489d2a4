import Mathlib.Data.List.TakeWhile
import Ecclesia.HttpIntf.GetValue
import Ecclesia.Query.Proto

namespace Ecclesia.ToProto

open HttpIntf Transport List

/-!
# Redfish objects in protos

A message is filled from a Redfish object: each field is set from the property of its name, and a
nested message from the object there.  The type of a message has a name, and a pool tells its fields,
so types may be recursive.

The definitions follow `to_proto.cc` and `HttpIntfVariantImpl::GetValue`.  A tree of objects is one
JSON value, with what a reference refers to in place of the reference.
-/

variable {TypeId : Type}

section

/-! ## Descriptors and calls -/

/-- The type of a field, where an enum has the names of its values. -/
inductive FieldType (TypeId : Type) where
  | float
  | double
  | int64
  | uint64
  | int32
  | uint32
  | bool
  | string
  | enum (names : List Text)
  | message (type : TypeId)
  | other

structure FieldDescriptor (TypeId : Type) where
  name : Text
  type : FieldType TypeId
  isRepeated : Bool

/-- An argument of a setter of `Reflection`; a descriptor of an enum value may be null. -/
inductive ProtoValue where
  | number (value : Rat)
  | int64 (value : BitVec 64)
  | uint64 (value : BitVec 64)
  | int32 (value : BitVec 32)
  | uint32 (value : BitVec 32)
  | bool (value : Bool)
  | string (value : Text)
  | enum (descriptor : Option Text)

/-- How an object is reached: through a property, or through an element of an iterable there. -/
inductive Step where
  | property (name : Text)
  | element (name : Text) (index : Nat)

/-- A value is set, or added if the field is repeated, in the message of the object at a place. -/
structure Call (TypeId : Type) where
  place : List Step
  field : FieldDescriptor TypeId
  value : ProtoValue

/-- The calls of a conversion, and what it returns; one with a null descriptor is not defined. -/
structure Conversion (TypeId : Type) where
  calls : List (Call TypeId)
  status : Status

/-! ## Redfish objects -/

/-- The elements that `AsIterable` finds: those of an array, or the members of a collection. -/
def elements (value : Option Json) : Option (List Json) :=
  match value with
  | some (.array items) => some items
  | some (.object members) =>
    match (Json.object members).find (text "Members") with
    | some (.array items) => some items
    | _ => none
  | _ => none

def asObject (value : Option Json) : Option Json :=
  match value with
  | some (.object members) => some (.object members)
  | _ => none

def stepInto (obj : Json) : Step -> Option Json
  | .property name => asObject (obj.find name)
  | .element name index => asObject (((elements (obj.find name)).getD [])[index]?)

/-- The object at a place. -/
def objectAt (root : Json) : List Step -> Option Json
  | [] => some root
  | step :: rest => (stepInto root step).bind fun sub => objectAt sub rest

variable {obj : Json}

lemma mem_parts_of_find {value : Json} {name : Text} (found : obj.find name = some value) :
    value ∈ obj.parts := by
  cases obj with
  | object members =>
    have member := mem_of_lookup found
    exact mem_map_of_mem member
  | _ => cases found

lemma sizeOf_elements_lt {value item : Json} (isItem : item ∈ (elements (some value)).getD []) :
    sizeOf item < sizeOf value := by
  cases value with
  | array items => exact Json.sizeOf_parts_lt (.array items) item isItem
  | object members =>
    rw [elements] at isItem
    cases found : (Json.object members).find (text "Members") with
    | none =>
      rw [found] at isItem
      cases isItem
    | some list =>
      rw [found] at isItem
      have smaller := Json.sizeOf_parts_lt _ list (mem_parts_of_find found)
      cases list with
      | array items => exact (Json.sizeOf_parts_lt (.array items) item isItem).trans smaller
      | _ => cases isItem
  | _ => cases isItem

lemma asObject_eq_some {value : Option Json} (isObject : asObject value = some obj) :
    value = some obj := by
  unfold asObject at isObject
  split at isObject
  · exact isObject
  · cases isObject

/-- A step leads into a smaller object. -/
lemma sizeOf_stepInto_lt {sub : Json} {step : Step} (isSub : stepInto obj step = some sub) :
    sizeOf sub < sizeOf obj := by
  cases step with
  | property name =>
    exact Json.sizeOf_parts_lt _ _ (mem_parts_of_find (asObject_eq_some isSub))
  | element name index =>
    have item := mem_of_getElem? (asObject_eq_some isSub)
    cases found : obj.find name with
    | none =>
      rw [found] at item
      cases item
    | some value =>
      rw [found] at item
      exact (sizeOf_elements_lt item).trans (Json.sizeOf_parts_lt _ _ (mem_parts_of_find found))

/-- What is done with the object that a step leads to. -/
def atStep {Result : Type} (obj : Json) (step : Step) (missing : Result)
    (nested : ∀ sub : Json, sizeOf sub < sizeOf obj -> Result) : Result :=
  match isSub : stepInto obj step with
  | none => missing
  | some sub => nested sub (sizeOf_stepInto_lt isSub)

lemma atStep_cases (step : Step) :
    (∀ {Result : Type} (missing : Result) nested, atStep obj step missing nested = missing) ∨
    ∃ sub, ∃ smaller : sizeOf sub < sizeOf obj, stepInto obj step = some sub ∧
      ∀ {Result : Type} (missing : Result) nested,
        atStep obj step missing nested = nested sub smaller := by
  cases isSub : stepInto obj step with
  | none =>
    refine .inl ?_
    intro Result missing nested
    unfold atStep
    split
    · rfl
    · rename_i sub found
      rw [isSub] at found
      cases found
  | some sub =>
    refine .inr ⟨sub, sizeOf_stepInto_lt isSub, rfl, ?_⟩
    intro Result missing nested
    unfold atStep
    split
    · rename_i found
      rw [isSub] at found
      cases found
    · rename_i other found
      rw [isSub] at found
      cases found
      rfl

end

/-! ## Conversion -/

namespace Conversion

def ok : Conversion TypeId :=
  ⟨[], .okStatus⟩

/-- An error ends the conversion. -/
def andThen (first second : Conversion TypeId) : Conversion TypeId :=
  if first.status.isOk then ⟨first.calls ++ second.calls, second.status⟩ else first

/-- The calls for an object that a step leads to. -/
def under (step : Step) (conversion : Conversion TypeId) : Conversion TypeId :=
  ⟨conversion.calls.map fun call => { call with place := step :: call.place }, conversion.status⟩

def joined (conversions : List (Conversion TypeId)) : Conversion TypeId :=
  conversions.foldr andThen ok

end Conversion

section

variable (undefinedCast : Int -> BitVec 64) (pool : TypeId -> List (FieldDescriptor TypeId))

/-- `GetValue` of a number, as a double. -/
def getDouble : Json -> Option Rat
  | .integer value => some (toDouble value)
  | .unsigned value => some (toDouble value)
  | .float value => some value
  | _ => none

/-- `GetValue` at the type of a field, and the conversion to its type in the proto. -/
def readValue (type : FieldType TypeId) (json : Json) : Option ProtoValue :=
  -- Whatever an undefined conversion to 32 bits gives, it is never used.
  let int32? := getValueInt32 (fun _ => 0) (.json json)
  let int64? := getValueInt64 undefinedCast (.json json)
  match type with
  | .float | .double => (getDouble json).map .number
  | .int64 => int64?.map .int64
  | .uint64 => int64?.map .uint64
  | .int32 => int32?.map .int32
  | .uint32 => int32?.map .uint32
  | .bool => match json with
      | .boolean value => some (.bool value)
      | _ => none
  | .string => json.string?.map .string
  | .enum names => json.string?.map fun name => .enum (if name ∈ names then some name else none)
  | .message _ | .other => none

def readAll (read : Json -> Option ProtoValue) : List Json -> List ProtoValue
  | [] => []
  | item :: rest =>
    match read item with
    | none => []
    | some value => value :: readAll read rest

/-- `RedfishPropertyToProto`, and the loop for enums: the values that are set or added. -/
def propertyToProto (obj : Json) (field : FieldDescriptor TypeId) : List ProtoValue :=
  let read := readValue undefinedCast field.type
  if field.isRepeated then
    match elements (obj.find field.name) with
    | none => []
    | some items => readAll read items
  else ((obj.find field.name).bind read).toList

/-- The steps to the objects of the nested messages of a field. -/
def stepsOf (obj : Json) (field : FieldDescriptor TypeId) : List Step :=
  if field.isRepeated then
    (List.range ((elements (obj.find field.name)).getD []).length).map (.element field.name)
  else [.property field.name]

def unsupported : Status :=
  ⟨.unimplemented, text "Unimplemented conversion from Redfish object to proto"⟩

/-- One field: nested messages are filled from their objects. -/
def convertField (obj : Json)
    (nested : ∀ sub : Json, sizeOf sub < sizeOf obj -> TypeId -> Conversion TypeId)
    (field : FieldDescriptor TypeId) : Conversion TypeId :=
  match field.type with
  | .message type =>
    .joined ((stepsOf obj field).map fun step =>
      atStep obj step .ok fun sub smaller => (nested sub smaller type).under step)
  | .other => ⟨[], unsupported⟩
  | _ => ⟨(propertyToProto undefinedCast obj field).map fun value => ⟨[], field, value⟩, .okStatus⟩

/-- `RedfishObjToProto`, into an empty message of a type. -/
def redfishObjToProto (obj : Json) (type : TypeId) : Conversion TypeId :=
  .joined ((pool type).map
    (convertField undefinedCast obj fun sub _ subType => redfishObjToProto sub subType))
termination_by sizeOf obj

end

/-! ## Visits -/

section

variable (undefinedCast : Int -> BitVec 64) (pool : TypeId -> List (FieldDescriptor TypeId))

/-- A field of a message, with the object that the message is filled from and its place. -/
structure Visit (TypeId : Type) where
  place : List Step
  obj : Json
  field : FieldDescriptor TypeId

def Visit.under (step : Step) (visit : Visit TypeId) : Visit TypeId :=
  { visit with place := step :: visit.place }

/-- The visits for one field of a message: the fields of nested messages are behind it. -/
def visitsOfField (obj : Json)
    (nested : ∀ sub : Json, sizeOf sub < sizeOf obj -> TypeId -> List (Visit TypeId))
    (field : FieldDescriptor TypeId) : List (Visit TypeId) :=
  ⟨[], obj, field⟩ ::
    match field.type with
    | .message type =>
      (stepsOf obj field).flatMap fun step =>
        atStep obj step [] fun sub smaller => (nested sub smaller type).map (.under step)
    | _ => []

/-- All fields that an object has for a type and for the types of its messages, in order. -/
def visits (obj : Json) (type : TypeId) : List (Visit TypeId) :=
  (pool type).flatMap (visitsOfField obj fun sub _ subType => visits sub subType)
termination_by sizeOf obj

/-- The field has a type that can be converted. -/
def Visit.isSupported (visit : Visit TypeId) : Bool :=
  match visit.field.type with
  | .other => false
  | _ => true

/-- The calls for one field, without those for nested messages. -/
def Visit.calls (visit : Visit TypeId) : List (Call TypeId) :=
  (propertyToProto undefinedCast visit.obj visit.field).map fun value =>
    ⟨visit.place, visit.field, value⟩

/-- The conversion of the fields up to the first that is not supported. -/
def ofVisits (visits : List (Visit TypeId)) : Conversion TypeId :=
  ⟨(visits.takeWhile Visit.isSupported).flatMap (Visit.calls undefinedCast),
    if visits.all Visit.isSupported then .okStatus else unsupported⟩

end

section

variable {undefinedCast : Int -> BitVec 64} {pool : TypeId -> List (FieldDescriptor TypeId)}

lemma ofVisits_append (first second : List (Visit TypeId)) :
    ofVisits undefinedCast (first ++ second) =
      (ofVisits undefinedCast first).andThen (ofVisits undefinedCast second) := by
  rw [ofVisits, ofVisits, takeWhile_append, all_append]
  cases all : first.all Visit.isSupported with
  | true =>
    have whole : first.takeWhile Visit.isSupported = first :=
      takeWhile_eq_self_iff.mpr (all_eq_true.mp all)
    rw [whole, if_pos rfl, flatMap_append]
    rfl
  | false =>
    have shorter : (first.takeWhile Visit.isSupported).length ≠ first.length := by
      intro same
      have whole := (takeWhile_sublist Visit.isSupported).eq_of_length same
      rw [all_eq_true.mpr (takeWhile_eq_self_iff.mp whole)] at all
      cases all
    rw [if_neg shorter]
    rfl

lemma ofVisits_under (step : Step) (visits : List (Visit TypeId)) :
    ofVisits undefinedCast (visits.map (.under step)) =
      (ofVisits undefinedCast visits).under step := by
  have sameCalls : ∀ visit : Visit TypeId, (visit.under step).calls undefinedCast =
      (visit.calls undefinedCast).map fun call => { call with place := step :: call.place } := by
    intro visit
    rw [Visit.calls, Visit.calls, map_map]
    rfl
  have sameSupport : (Visit.isSupported ∘ Visit.under step : Visit TypeId -> Bool) =
      Visit.isSupported := rfl
  rw [ofVisits, ofVisits, Conversion.under, takeWhile_map, all_map, sameSupport,
    flatMap_map, map_flatMap]
  simp only [sameCalls]

lemma joined_eq {Item : Type} {items : List Item} {convert : Item -> Conversion TypeId}
    {visited : Item -> List (Visit TypeId)}
    (same : ∀ item ∈ items, convert item = ofVisits undefinedCast (visited item)) :
    Conversion.joined (items.map convert) = ofVisits undefinedCast (items.flatMap visited) := by
  induction items with
  | nil => rfl
  | cons item rest ih =>
    rcases forall_mem_cons.mp same with ⟨ofItem, ofRest⟩
    rw [flatMap_cons, ofVisits_append, <- ofItem, <- ih ofRest]
    rfl

variable {obj : Json} {field : FieldDescriptor TypeId}

lemma propertyToProto_eq_nil (noRead : ∀ json, readValue undefinedCast field.type json = none) :
    propertyToProto undefinedCast obj field = [] := by
  rw [propertyToProto]
  split
  · split
    · rfl
    · rename_i items isList
      cases items with
      | nil => rfl
      | cons item rest => rw [readAll, noRead item]
  · cases obj.find field.name with
    | none => rfl
    | some value =>
      rw [Option.bind_some, noRead value]
      rfl

lemma ofVisits_single (supported : (Visit.mk [] obj field).isSupported = true) :
    ofVisits undefinedCast [⟨[], obj, field⟩] =
      ⟨(propertyToProto undefinedCast obj field).map fun value => ⟨[], field, value⟩, .okStatus⟩ := by
  rw [ofVisits, takeWhile_cons, all_cons, supported]
  exact congrArg (Conversion.mk · Status.okStatus) (append_nil _)

lemma convertField_eq
    {nested : ∀ sub : Json, sizeOf sub < sizeOf obj -> TypeId -> Conversion TypeId}
    {visited : ∀ sub : Json, sizeOf sub < sizeOf obj -> TypeId -> List (Visit TypeId)}
    (same : ∀ sub smaller type,
      nested sub smaller type = ofVisits undefinedCast (visited sub smaller type))
    (field : FieldDescriptor TypeId) :
    convertField undefinedCast obj nested field =
      ofVisits undefinedCast (visitsOfField obj visited field) := by
  rcases field with ⟨name, type, isRepeated⟩
  cases type with
  | message type =>
    have noCalls : propertyToProto undefinedCast obj ⟨name, .message type, isRepeated⟩ = [] :=
      propertyToProto_eq_nil fun _ => rfl
    have ownVisit : visitsOfField obj visited ⟨name, .message type, isRepeated⟩ =
        [⟨[], obj, ⟨name, .message type, isRepeated⟩⟩] ++
          (stepsOf obj ⟨name, .message type, isRepeated⟩).flatMap fun step =>
            atStep obj step [] fun sub smaller => (visited sub smaller type).map (.under step) := rfl
    rw [ownVisit, ofVisits_append, ofVisits_single rfl, noCalls]
    refine joined_eq ?_
    intro step _
    rcases atStep_cases step with missing | ⟨sub, smaller, _, isSub⟩
    · rw [missing, missing]
      rfl
    · rw [isSub, isSub, ofVisits_under, same]
  | other => rfl
  | _ => exact (ofVisits_single rfl).symm

lemma redfishObjToProto_eq (obj : Json) (type : TypeId) :
    redfishObjToProto undefinedCast pool obj type = ofVisits undefinedCast (visits pool obj type) := by
  induction size : sizeOf obj using Nat.strong_induction_on generalizing obj type with
  | _ bound ih =>
    rw [redfishObjToProto, visits]
    refine joined_eq ?_
    intro field _
    refine convertField_eq ?_ field
    intro sub smaller subType
    exact ih _ (size ▸ smaller) sub subType rfl

lemma objectAt_visit {type : TypeId} {visit : Visit TypeId}
    (member : visit ∈ visits pool obj type) : objectAt obj visit.place = some visit.obj := by
  induction size : sizeOf obj using Nat.strong_induction_on generalizing obj type visit with
  | _ bound ih =>
    rw [visits, mem_flatMap] at member
    rcases member with ⟨field, _, member⟩
    rcases mem_cons.mp member with rfl | nested
    · rfl
    · split at nested
      · rcases mem_flatMap.mp nested with ⟨step, _, nested⟩
        rcases atStep_cases step with missing | ⟨sub, smaller, isStep, isSub⟩
        · rw [missing] at nested
          cases nested
        · rw [isSub] at nested
          rcases mem_map.mp nested with ⟨visit, below, rfl⟩
          have placed := ih _ (size ▸ smaller) below rfl
          change (stepInto obj step).bind (fun sub => objectAt sub visit.place) = some visit.obj
          rw [isStep, Option.bind_some, placed]
      · cases nested

end

/-! ## What a conversion has to do -/

/-- The integer that a property shows, which is the nearest one of a number that is not whole. -/
def integerFound (value : Option Json) : Option Int :=
  (value.bind fun json => number? (.json json)).map roundAway

def IsFound (value : Option Json) : ProtoValue -> Prop
  | .int64 stored => integerFound value = some stored.toInt
  | .uint64 stored => integerFound value = some (stored.toNat : Int)
  | .int32 stored => integerFound value = some stored.toInt
  | .uint32 stored => integerFound value = some (stored.toNat : Int)
  | .bool stored => value = some (.boolean stored)
  | .string stored => value = some (.string stored)
  | .enum (some name) => value = some (.string name)
  | .enum none => False
  | .number _ => True

/-- No null descriptor is passed, and after a success every singular field has the value of its
property. -/
structure Faithful (root : Json) (conversion : Conversion TypeId) : Prop where
  noNull : ∀ call ∈ conversion.calls, call.value ≠ .enum none
  exact : conversion.status.isOk = true -> ∀ call ∈ conversion.calls,
    call.field.isRepeated = false -> ∃ obj, objectAt root call.place = some obj ∧
      IsFound (obj.find call.field.name) call.value

/-- A number is read into a target and then taken to be in a range. -/
def Fits (target : IntegerTarget) (Range : Int -> Prop) : Json -> Prop
  | .integer n => Range n
  | .unsigned n => Range n
  | .float x => (target.Holds (roundAway x) -> Range (roundAway x)) ∧
      ¬ (target = .int64 ∧ roundAway x = 2 ^ 63)
  | _ => True

def IsUnsigned (width : Nat) (n : Int) : Prop :=
  0 <= n ∧ n < 2 ^ width

/-- A number is in the range of the type of a field. -/
def FitsType : FieldType TypeId -> Json -> Prop
  | .int32, json => Fits .int32 (IntegerTarget.Holds .int32) json
  | .int64, json => Fits .int64 (IntegerTarget.Holds .int64) json
  | .uint32, json => Fits .int32 (IsUnsigned 32) json
  | .uint64, json => Fits .int64 (IsUnsigned 64) json
  | _, _ => True

def texts (obj : Json) (field : FieldDescriptor TypeId) : List Text :=
  if field.isRepeated then
    (((elements (obj.find field.name)).getD []).takeWhile Json.isString).filterMap Json.string?
  else ((obj.find field.name).bind Json.string?).toList

/-- All texts for an enum are names of it. -/
def Visit.KnownNames (visit : Visit TypeId) : Prop :=
  match visit.field.type with
  | .enum names => ∀ name ∈ texts visit.obj visit.field, name ∈ names
  | _ => True

/-- The number for a singular field is in the range of its type. -/
def Visit.FitsField (visit : Visit TypeId) : Prop :=
  visit.field.isRepeated = false -> ∀ json, visit.obj.find visit.field.name = some json ->
    FitsType visit.field.type json

/-- The names for enums are known up to the first field that is not supported, and else numbers fit.
-/
structure Convertible (pool : TypeId -> List (FieldDescriptor TypeId)) (obj : Json)
    (type : TypeId) : Prop where
  known : ∀ visit ∈ (visits pool obj type).takeWhile Visit.isSupported, visit.KnownNames
  fits : (∀ visit ∈ visits pool obj type, visit.isSupported = true) ->
    ∀ visit ∈ visits pool obj type, visit.FitsField

/-! ## Integers -/

section

variable {target : IntegerTarget} {view : BitVec target.width -> Int} {Range : Int -> Prop}

lemma getValueInteger_float (undefinedCast : Int -> BitVec target.width) (x : Rat) :
    getValueInteger target undefinedCast (.json (.float x)) =
      if target.Holds (roundAway x) ∨ target = .int64 ∧ roundAway x = 2 ^ 63 then
        some (castDouble target undefinedCast (roundAway x))
      else none := by
  have passing := passes_bounds_iff target (roundAway x)
  rw [getValueInteger]
  split
  · rename_i stopped
    exact (if_neg fun inside => passing.mpr inside stopped).symm
  · rename_i passes
    exact (if_pos (passing.mp passes)).symm

lemma integerFound_integer (n : Int) : integerFound (some (.integer n)) = some n := by
  change some (roundAway (n : Rat)) = some n
  rw [roundAway_intCast]

lemma integerFound_unsigned (n : Nat) : integerFound (some (.unsigned n)) = some (n : Int) := by
  change some (roundAway ((n : Nat) : Rat)) = some (n : Int)
  rw [<- Int.cast_natCast, roundAway_intCast]

lemma found_of_fits (viewed : ∀ n, view (BitVec.ofInt target.width n) = n <-> Range n)
    {undefinedCast : Int -> BitVec target.width} {json : Json} {stored : BitVec target.width}
    (fits : Fits target Range json)
    (read : getValueInteger target undefinedCast (.json json) = some stored) :
    integerFound (some json) = some (view stored) := by
  cases json with
  | integer n =>
    cases read
    rw [integerFound_integer, (viewed n).mpr fits]
  | unsigned n =>
    cases read
    rw [integerFound_unsigned, (viewed n).mpr fits]
  | float x =>
    rw [getValueInteger_float] at read
    split at read
    · rename_i passes
      have holds := passes.resolve_right fits.2
      cases read
      rw [castDouble, if_pos holds, (viewed _).mpr (fits.1 holds)]
      rfl
    · cases read
  | _ => cases read

lemma fits_of_found (viewed : ∀ n, view (BitVec.ofInt target.width n) = n <-> Range n)
    (notZero : target = .int64 -> view 0 ≠ 2 ^ 63) {json : Json}
    (found : ∀ stored, getValueInteger target (fun _ => 0) (.json json) = some stored ->
      integerFound (some json) = some (view stored)) : Fits target Range json := by
  cases json with
  | integer n =>
    have same := found _ rfl
    rw [integerFound_integer] at same
    exact (viewed n).mp (Option.some.inj same).symm
  | unsigned n =>
    have same := found _ rfl
    rw [integerFound_unsigned] at same
    exact (viewed n).mp (Option.some.inj same).symm
  | float x =>
    rw [getValueInteger_float] at found
    constructor
    · intro holds
      have same := found _ (if_pos (.inl holds))
      rw [castDouble, if_pos holds] at same
      exact (viewed _).mp (Option.some.inj same).symm
    · rintro ⟨isLong, tooGreat⟩
      have same := found _ (if_pos (.inr ⟨isLong, tooGreat⟩))
      have outside : ¬ target.Holds (roundAway x) := by
        intro holds
        have bound := holds.2
        rw [isLong, tooGreat] at bound
        exact absurd bound (by decide)
      rw [castDouble, if_neg outside] at same
      have isZero : roundAway x = view 0 := Option.some.inj same
      exact notZero isLong (isZero.symm.trans tooGreat)
  | _ => trivial

lemma toNat_ofInt_iff (width : Nat) (n : Int) :
    ((BitVec.ofInt width n).toNat : Int) = n <-> IsUnsigned width n := by
  constructor
  · intro same
    have bound := (BitVec.ofInt width n).isLt
    rw [<- same]
    exact ⟨Int.natCast_nonneg _, by exact_mod_cast bound⟩
  · rintro ⟨nonneg, small⟩
    have positive : (0 : Int) < 2 ^ width := Int.pow_pos (by decide)
    rw [BitVec.toNat_ofInt, Int.toNat_of_nonneg (Int.emod_nonneg _ (by exact_mod_cast positive.ne'))]
    exact Int.emod_eq_of_lt nonneg (by exact_mod_cast small)

variable {undefinedCast : Int -> BitVec 64}

variable {type : FieldType TypeId} {value : ProtoValue}

lemma isFound_of_fits {json : Json} (notNull : value ≠ .enum none) (fits : FitsType type json)
    (read : readValue undefinedCast type json = some value) : IsFound (some json) value := by
  cases type with
  | int64 =>
    rcases Option.map_eq_some_iff.mp read with ⟨stored, isStored, rfl⟩
    exact found_of_fits (toInt_ofInt_iff .int64) fits isStored
  | uint64 =>
    rcases Option.map_eq_some_iff.mp read with ⟨stored, isStored, rfl⟩
    exact @found_of_fits .int64 (fun stored => stored.toNat) _ (toNat_ofInt_iff 64) _ _ _ fits
      isStored
  | int32 =>
    rcases Option.map_eq_some_iff.mp read with ⟨stored, isStored, rfl⟩
    exact found_of_fits (toInt_ofInt_iff .int32) fits isStored
  | uint32 =>
    rcases Option.map_eq_some_iff.mp read with ⟨stored, isStored, rfl⟩
    exact @found_of_fits .int32 (fun stored => stored.toNat) _ (toNat_ofInt_iff 32) _ _ _ fits
      isStored
  | bool =>
    cases json with
    | boolean bit =>
      cases read
      rfl
    | _ => cases read
  | string =>
    cases json with
    | string content =>
      cases read
      rfl
    | _ => cases read
  | enum names =>
    cases json with
    | string content =>
      have isValue : some (.enum (if content ∈ names then some content else none)) =
          some value := read
      by_cases known : content ∈ names
      · rw [if_pos known] at isValue
        cases isValue
        rfl
      · rw [if_neg known] at isValue
        cases isValue
        exact absurd rfl notNull
    | _ => cases read
  | message subType => cases read
  | other => cases read
  | _ =>
    rcases Option.map_eq_some_iff.mp read with ⟨number, _, rfl⟩
    trivial

lemma fitsType_of_isFound {json : Json}
    (found : ∀ value, readValue (fun _ => 0) type json = some value ->
      IsFound (some json) value) : FitsType type json := by
  cases type with
  | int64 =>
    refine fits_of_found (toInt_ofInt_iff .int64) (fun _ => by decide) ?_
    intro stored isStored
    exact found (.int64 stored) (congrArg (Option.map ProtoValue.int64) isStored)
  | uint64 =>
    refine @fits_of_found .int64 (fun stored => stored.toNat) _ (toNat_ofInt_iff 64)
      (fun _ => by decide) _ ?_
    intro stored isStored
    exact found (.uint64 stored) (congrArg (Option.map ProtoValue.uint64) isStored)
  | int32 =>
    refine fits_of_found (toInt_ofInt_iff .int32) (fun _ => by decide) ?_
    intro stored isStored
    exact found (.int32 stored) (congrArg (Option.map ProtoValue.int32) isStored)
  | uint32 =>
    refine @fits_of_found .int32 (fun stored => stored.toNat) _ (toNat_ofInt_iff 32)
      (fun _ => by decide) _ ?_
    intro stored isStored
    exact found (.uint32 stored) (congrArg (Option.map ProtoValue.uint32) isStored)
  | _ => trivial

/-! ## Enums -/

lemma readAll_enum (names : List Text) (items : List Json) :
    readAll (readValue undefinedCast (.enum names : FieldType TypeId)) items =
      ((items.takeWhile Json.isString).filterMap Json.string?).map fun name =>
        .enum (if name ∈ names then some name else none) := by
  induction items with
  | nil => rfl
  | cons item rest ih =>
    cases item with
    | string content => exact congrArg (List.cons _) ih
    | _ => rfl

lemma propertyToProto_enum (obj : Json) (name : Text) (names : List Text) (isRepeated : Bool) :
    propertyToProto undefinedCast obj (⟨name, .enum names, isRepeated⟩ : FieldDescriptor TypeId) =
      (texts obj (⟨name, .enum names, isRepeated⟩ : FieldDescriptor TypeId)).map fun name =>
        .enum (if name ∈ names then some name else none) := by
  rw [propertyToProto, texts]
  cases isRepeated with
  | true =>
    cases elements (obj.find name) with
    | none => rfl
    | some items => exact readAll_enum names items
  | false =>
    cases obj.find name with
    | none => rfl
    | some json =>
      cases json with
      | string content => rfl
      | _ => rfl

lemma readValue_ne_null {json : Json} (noEnum : ∀ names, type ≠ .enum names) :
    readValue undefinedCast type json ≠ some (.enum none) := by
  intro read
  cases type with
  | enum names => exact noEnum names rfl
  | bool => cases json <;> cases read
  | message subType => cases read
  | other => cases read
  | _ =>
    rcases Option.map_eq_some_iff.mp read with ⟨stored, _, isValue⟩
    cases isValue

lemma mem_readAll {read : Json -> Option ProtoValue} {items : List Json}
    (member : value ∈ readAll read items) : ∃ item ∈ items, read item = some value := by
  induction items with
  | nil => cases member
  | cons item rest ih =>
    rw [readAll] at member
    cases isRead : read item with
    | none =>
      rw [isRead] at member
      cases member
    | some first =>
      rw [isRead] at member
      rcases mem_cons.mp member with rfl | later
      · exact ⟨item, .head _, isRead⟩
      · rcases ih later with ⟨other, isItem, isOther⟩
        exact ⟨other, .tail _ isItem, isOther⟩

variable {field : FieldDescriptor TypeId}

lemma exists_read {obj : Json} (member : value ∈ propertyToProto undefinedCast obj field) :
    ∃ json, readValue undefinedCast field.type json = some value := by
  rw [propertyToProto] at member
  split at member
  · split at member
    · cases member
    · rcases mem_readAll member with ⟨json, _, isRead⟩
      exact ⟨json, isRead⟩
  · rcases Option.bind_eq_some_iff.mp (Option.mem_toList.mp member) with ⟨json, _, isRead⟩
    exact ⟨json, isRead⟩

lemma knownNames_iff (visit : Visit TypeId) :
    (∀ value ∈ propertyToProto undefinedCast visit.obj visit.field,
      value ≠ .enum none) <-> visit.KnownNames := by
  rcases visit with ⟨place, obj, name, type, isRepeated⟩
  by_cases isEnum : ∃ names, type = .enum names
  · rcases isEnum with ⟨names, rfl⟩
    rw [propertyToProto_enum]
    constructor
    · intro noNull text member
      by_contra unknown
      refine noNull _ (mem_map_of_mem member) ?_
      rw [if_neg unknown]
    · intro known value member
      rcases mem_map.mp member with ⟨text, isText, rfl⟩
      rw [if_pos (known text isText)]
      exact nofun
  · have noEnum : ∀ names, type ≠ .enum names := fun names same => isEnum ⟨names, same⟩
    have known : (Visit.mk place obj ⟨name, type, isRepeated⟩).KnownNames := by
      cases type with
      | enum names => exact absurd rfl (noEnum names)
      | _ => trivial
    refine iff_of_true ?_ known
    rintro value member rfl
    rcases exists_read member with ⟨json, isRead⟩
    exact readValue_ne_null noEnum isRead

lemma mem_calls {visits : List (Visit TypeId)} {call : Call TypeId} :
    call ∈ (ofVisits undefinedCast visits).calls <->
      ∃ visit ∈ visits.takeWhile Visit.isSupported, call ∈ visit.calls undefinedCast :=
  mem_flatMap

lemma ofVisits_isOk (visits : List (Visit TypeId)) :
    (ofVisits undefinedCast visits).status.isOk = true <->
      ∀ visit ∈ visits, visit.isSupported = true := by
  rw [<- all_eq_true, ofVisits]
  cases visits.all Visit.isSupported with
  | true => exact iff_of_true rfl rfl
  | false => exact iff_of_false Bool.false_ne_true Bool.false_ne_true

lemma mem_propertyToProto {obj : Json} (isSingular : field.isRepeated = false) :
    value ∈ propertyToProto undefinedCast obj field <->
      ∃ json, obj.find field.name = some json ∧
        readValue undefinedCast field.type json = some value := by
  rw [propertyToProto, isSingular, if_neg Bool.false_ne_true, Option.mem_toList]
  exact Option.bind_eq_some_iff

end

/-! ## Faithful conversions -/

section

variable {pool : TypeId -> List (FieldDescriptor TypeId)} {obj : Json} {type : TypeId}

lemma faithful_of_convertible (undefinedCast : Int -> BitVec 64)
    (convertible : Convertible pool obj type) :
    Faithful obj (redfishObjToProto undefinedCast pool obj type) := by
  rw [redfishObjToProto_eq]
  have noNull : ∀ call ∈ (ofVisits undefinedCast (visits pool obj type)).calls,
      call.value ≠ .enum none := by
    intro call member
    rcases mem_calls.mp member with ⟨visit, isVisit, isCall⟩
    rcases mem_map.mp isCall with ⟨value, isValue, rfl⟩
    exact (knownNames_iff visit).mpr (convertible.known visit isVisit) value isValue
  refine ⟨noNull, ?_⟩
  intro success call member isSingular
  rcases mem_calls.mp member with ⟨visit, isVisit, isCall⟩
  have visited := (takeWhile_sublist _).subset isVisit
  have fits := convertible.fits ((ofVisits_isOk _).mp success) visit visited
  rcases mem_map.mp isCall with ⟨value, isValue, rfl⟩
  rcases (mem_propertyToProto isSingular).mp isValue with ⟨json, isProperty, isRead⟩
  refine ⟨visit.obj, objectAt_visit visited, ?_⟩
  rw [isProperty]
  exact isFound_of_fits (noNull _ member) (fits isSingular json isProperty) isRead

lemma convertible_of_faithful
    (faithful : Faithful obj (redfishObjToProto (fun _ => 0) pool obj type)) :
    Convertible pool obj type := by
  rw [redfishObjToProto_eq] at faithful
  constructor
  · intro visit isVisit
    refine (@knownNames_iff TypeId (fun _ => 0) visit).mp ?_
    intro value isValue
    exact faithful.noNull ⟨visit.place, visit.field, value⟩
      (mem_calls.mpr ⟨visit, isVisit, mem_map_of_mem isValue⟩)
  · intro supported visit visited isSingular json isProperty
    have whole : (visits pool obj type).takeWhile Visit.isSupported = visits pool obj type :=
      takeWhile_eq_self_iff.mpr supported
    refine fitsType_of_isFound ?_
    intro value isRead
    have isValue := (mem_propertyToProto isSingular).mpr ⟨json, isProperty, isRead⟩
    have isCall := mem_calls.mpr ⟨visit, whole.symm ▸ visited, mem_map_of_mem isValue⟩
    rcases faithful.exact ((ofVisits_isOk _).mpr supported) _ isCall isSingular with
      ⟨source, isSource, found⟩
    rw [objectAt_visit visited] at isSource
    cases isSource
    rwa [isProperty] at found

end

/-- A conversion is faithful exactly if the names for enums are known and the numbers fit. -/
theorem redfishObjToProto_faithful_iff : ∀ {TypeId : Type}
    (pool : TypeId -> List (FieldDescriptor TypeId)) (obj : Json) (type : TypeId),
    (∀ undefinedCast, Faithful obj (redfishObjToProto undefinedCast pool obj type)) <->
      Convertible pool obj type := by
  intro TypeId pool obj type
  constructor
  · intro faithful
    exact convertible_of_faithful (faithful _)
  · intro convertible undefinedCast
    exact faithful_of_convertible undefinedCast convertible

/-- A null descriptor is passed for an unknown enum, and a negative number becomes a large one. -/
theorem redfishObjToProto_unfaithful :
    ¬ Faithful (.object [(text "a", .string (text "b"))])
        (redfishObjToProto (fun _ => 0) (fun _ : Unit => [⟨text "a", .enum [], false⟩])
          (.object [(text "a", .string (text "b"))]) ()) ∧
      ¬ Faithful (.object [(text "a", .integer (-1))])
        (redfishObjToProto (fun _ => 0) (fun _ : Unit => [⟨text "a", .uint32, false⟩])
          (.object [(text "a", .integer (-1))]) ()) := by
  constructor
  · intro faithful
    have convertible := convertible_of_faithful faithful
    have visited : visits (fun _ : Unit => [⟨text "a", .enum [], false⟩])
        (.object [(text "a", .string (text "b"))]) () =
        [⟨[], .object [(text "a", .string (text "b"))], ⟨text "a", .enum [], false⟩⟩] := by
      rw [visits]
      rfl
    have known := convertible.known
      ⟨[], .object [(text "a", .string (text "b"))], ⟨text "a", .enum [], false⟩⟩ (by
        rw [visited]
        exact (.head _))
    exact List.not_mem_nil (known (text "b") (.head _))
  · intro faithful
    have convertible := convertible_of_faithful faithful
    have visited : visits (fun _ : Unit => [⟨text "a", .uint32, false⟩])
        (.object [(text "a", .integer (-1))]) () =
        [⟨[], .object [(text "a", .integer (-1))], ⟨text "a", .uint32, false⟩⟩] := by
      rw [visits]
      rfl
    have fits := convertible.fits (by
      rw [visited]
      intro visit member
      rw [List.mem_singleton.mp member]
      rfl) _ (visited ▸ List.mem_cons_self) rfl _ rfl
    have nonneg : (0 : Int) <= -1 := fits.1
    exact absurd nonneg (by decide)

end Ecclesia.ToProto
