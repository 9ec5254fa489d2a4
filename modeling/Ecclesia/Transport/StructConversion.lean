import Mathlib.Data.Char
import Mathlib.Data.List.Lex
import Ecclesia.Absl.Strings
import Ecclesia.Library.Assoc
import Ecclesia.Library.Rounding
import Ecclesia.Library.SortedMap

namespace Ecclesia.StructConversion

open Library List
open Prod (fst)

/-!
# JSON in a proto struct

A `google::protobuf::Value` has a kind: a null value, a number, a string, a boolean, or a map or a
list of such values.  All its numbers are floating point.  A map is iterated in an order of its own,
and a JSON object in the order of its keys.

The definitions follow `struct_proto_conversion.cc`.
-/

/-- A `double`; negative zero, the infinities and what is no number have their bits. -/
inductive Double where
  | finite (value : Rat)
  | special (bits : BitVec 64)
deriving DecidableEq

/-- The conversion of an integer, which is rounded to 53 bits. -/
def Double.ofInteger (n : Int) : Double :=
  .finite (roundToBits 53 n)

/-- A JSON value, with the members of an object in the order of their names. -/
inductive JsonValue where
  | null
  | boolean (value : Bool)
  | integer (value : Int64)
  | unsigned (value : UInt64)
  | float (value : Double)
  | string (value : Text)
  | array (elements : List JsonValue)
  | object (members : List (Text × JsonValue))

/-- A `google::protobuf::Value`, with the fields of a struct in the order of their iteration. -/
inductive ProtoValue where
  | kindNotSet
  | nullValue
  | numberValue (value : Double)
  | stringValue (value : Text)
  | boolValue (value : Bool)
  | structValue (fields : List (Text × ProtoValue))
  | listValue (values : List ProtoValue)

/-- A `google::protobuf::Struct`, which is its fields. -/
abbrev ProtoStruct := List (Text × ProtoValue)

/-- A `google::protobuf::ListValue`, which is its values. -/
abbrev ProtoList := List ProtoValue

mutual

def valueToJson : ProtoValue -> JsonValue
  | .nullValue => .null
  | .numberValue value => .float value
  | .stringValue value => .string value
  | .boolValue value => .boolean value
  | .structValue fields => .object (fieldsToJson [] fields)
  | .listValue values => .array (elementsToJson values)
  | .kindNotSet => .object []

/-- The loop of `StructToJson`: each field is assigned to a member. -/
def fieldsToJson (json : List (Text × JsonValue)) : ProtoStruct -> List (Text × JsonValue)
  | [] => json
  | (key, value) :: rest => fieldsToJson (insertSorted key (valueToJson value) json) rest

/-- The loop of `ListValueToJson` -/
def elementsToJson : ProtoList -> List JsonValue
  | [] => []
  | value :: rest => valueToJson value :: elementsToJson rest

end

def structToJson (message : ProtoStruct) : JsonValue :=
  .object (fieldsToJson [] message)

def listValueToJson (message : ProtoList) : JsonValue :=
  .array (elementsToJson message)

mutual

def jsonToValue : JsonValue -> ProtoValue
  | .null => .nullValue
  | .integer value => .numberValue (.ofInteger value.toInt)
  | .unsigned value => .numberValue (.ofInteger value.toNat)
  | .float value => .numberValue value
  | .string value => .stringValue value
  | .boolean value => .boolValue value
  | .object members => .structValue (membersToStruct [] members)
  | .array elements => .listValue (elementsToValues elements)

/-- The loop of `JsonToStruct`: each member is assigned to a field. -/
def membersToStruct (fields : ProtoStruct) : List (Text × JsonValue) -> ProtoStruct
  | [] => fields
  | (key, value) :: rest => membersToStruct (insertOrAssign key (jsonToValue value) fields) rest

/-- The loop of `JsonToListValue` -/
def elementsToValues : List JsonValue -> ProtoList
  | [] => []
  | value :: rest => jsonToValue value :: elementsToValues rest

end

/-- `JsonToStruct`, which is empty for what is no object. -/
def jsonToStruct : JsonValue -> ProtoStruct
  | .object members => membersToStruct [] members
  | _ => []

/-- `JsonToListValue`, which is empty for what is no array. -/
def jsonToListValue : JsonValue -> ProtoList
  | .array elements => elementsToValues elements
  | _ => []

mutual

/-- Two protos are equal: two maps have the same keys, and equal values for them. -/
def Same : ProtoValue -> ProtoValue -> Prop
  | .kindNotSet, .kindNotSet => True
  | .nullValue, .nullValue => True
  | .numberValue first, .numberValue second => first = second
  | .stringValue first, .stringValue second => first = second
  | .boolValue first, .boolValue second => first = second
  | .structValue first, .structValue second =>
    (first.map Prod.fst).Perm (second.map Prod.fst) ∧ SameFields first second
  | .listValue first, .listValue second => SameValues first second
  | _, _ => False

def SameFields : ProtoStruct -> ProtoStruct -> Prop
  | [], _ => True
  | (key, value) :: rest, map =>
    (∃ other, (key, other) ∈ map ∧ Same value other) ∧ SameFields rest map

def SameValues : ProtoList -> ProtoList -> Prop
  | [], [] => True
  | first :: rest, second :: others => Same first second ∧ SameValues rest others
  | _, _ => False

end

def JsonValue.number? : JsonValue -> Option Double
  | .integer value => some (.finite value.toInt)
  | .unsigned value => some (.finite value.toNat)
  | .float value => some value
  | _ => none

mutual

/-- Two JSON values are equal, with their numbers compared as numbers. -/
def Alike : JsonValue -> JsonValue -> Prop
  | .null, .null => True
  | .boolean first, .boolean second => first = second
  | .string first, .string second => first = second
  | .array first, .array second => AlikeElements first second
  | .object first, .object second => AlikeMembers first second
  | first, second => ∃ number, first.number? = some number ∧ second.number? = some number

def AlikeElements : List JsonValue -> List JsonValue -> Prop
  | [], [] => True
  | first :: rest, second :: others => Alike first second ∧ AlikeElements rest others
  | _, _ => False

/-- Two objects have equal members. -/
def AlikeMembers : List (Text × JsonValue) -> List (Text × JsonValue) -> Prop
  | [], [] => True
  | first :: rest, second :: others =>
    (first.1 = second.1 ∧ Alike first.2 second.2) ∧ AlikeMembers rest others
  | _, _ => False

end

mutual

def ProtoValue.All (holds : ProtoValue -> Prop) : ProtoValue -> Prop
  | .structValue fields => holds (.structValue fields) ∧ allFields holds fields
  | .listValue values => holds (.listValue values) ∧ allValues holds values
  | value => holds value

def allFields (holds : ProtoValue -> Prop) : ProtoStruct -> Prop
  | [] => True
  | field :: rest => field.2.All holds ∧ allFields holds rest

def allValues (holds : ProtoValue -> Prop) : ProtoList -> Prop
  | [] => True
  | value :: rest => value.All holds ∧ allValues holds rest

end

mutual

def JsonValue.All (holds : JsonValue -> Prop) : JsonValue -> Prop
  | .array elements => holds (.array elements) ∧ allElements holds elements
  | .object members => holds (.object members) ∧ allMembers holds members
  | value => holds value

def allElements (holds : JsonValue -> Prop) : List JsonValue -> Prop
  | [] => True
  | value :: rest => value.All holds ∧ allElements holds rest

def allMembers (holds : JsonValue -> Prop) : List (Text × JsonValue) -> Prop
  | [] => True
  | member :: rest => member.2.All holds ∧ allMembers holds rest

end

def HasKind : ProtoValue -> Prop
  | .kindNotSet => False
  | _ => True

def HasDistinctKeys : ProtoValue -> Prop
  | .structValue fields => (fields.map Prod.fst).Nodup
  | _ => True

/-- The members of an object are in the order of their names. -/
def IsOrdered : JsonValue -> Prop
  | .object members => Ascending members
  | _ => True

/-- An integer has a magnitude of at most 2^53. -/
def IsExact : JsonValue -> Prop
  | .integer value => |value.toInt| <= 2 ^ 53
  | .unsigned value => value.toNat <= 2 ^ 53
  | _ => True

lemma fieldsToJson_eq (json : List (Text × JsonValue)) (fields : ProtoStruct) :
    fieldsToJson json fields =
      insertAll json (fields.map fun field => (field.1, valueToJson field.2)) := by
  induction fields generalizing json with
  | nil => rfl
  | cons field rest ih => exact ih _

lemma elementsToJson_eq (values : ProtoList) : elementsToJson values = values.map valueToJson := by
  induction values with
  | nil => rfl
  | cons value rest ih => exact congrArg _ ih

lemma elementsToValues_eq (elements : List JsonValue) :
    elementsToValues elements = elements.map jsonToValue := by
  induction elements with
  | nil => rfl
  | cons value rest ih => exact congrArg _ ih

variable {fields : ProtoStruct} {members : List (Text × JsonValue)}

lemma membersToStruct_eq (distinct : (members.map fst).Nodup)
    (absent : ∀ name ∈ members.map fst, name ∉ fields.map fst) :
    membersToStruct fields members =
      fields ++ members.map fun member => (member.1, jsonToValue member.2) := by
  induction members generalizing fields with
  | nil => exact (append_nil fields).symm
  | cons member rest ih =>
    rcases member with ⟨name, value⟩
    rw [map_cons, nodup_cons] at distinct
    rw [membersToStruct, insertOrAssign_absent (absent name (.head _)), ih distinct.2]
    · rw [append_assoc]
      rfl
    · intro other member isThere
      rw [map_append, mem_append] at isThere
      rcases isThere with old | isNew
      · exact absent other (.tail _ member) old
      · rw [map_singleton, mem_singleton] at isNew
        exact distinct.1 (isNew ▸ member)

lemma jsonToStruct_object (ordered : Ascending members) :
    jsonToStruct (.object members) =
      members.map fun member => (member.1, jsonToValue member.2) := by
  rw [jsonToStruct, membersToStruct_eq ordered.nodup (fun _ _ => not_mem_nil), nil_append]

lemma allFields_iff {holds : ProtoValue -> Prop} :
    allFields holds fields <-> ∀ field ∈ fields, field.2.All holds := by
  induction fields with
  | nil => exact iff_of_true trivial (forall_mem_nil _)
  | cons field rest ih => rw [allFields, ih, forall_mem_cons]

lemma allValues_iff {holds : ProtoValue -> Prop} {values : ProtoList} :
    allValues holds values <-> ∀ value ∈ values, value.All holds := by
  induction values with
  | nil => exact iff_of_true trivial (forall_mem_nil _)
  | cons value rest ih => rw [allValues, ih, forall_mem_cons]

lemma allElements_iff {holds : JsonValue -> Prop} {elements : List JsonValue} :
    allElements holds elements <-> ∀ element ∈ elements, element.All holds := by
  induction elements with
  | nil => exact iff_of_true trivial (forall_mem_nil _)
  | cons element rest ih => rw [allElements, ih, forall_mem_cons]

lemma allMembers_iff {holds : JsonValue -> Prop} :
    allMembers holds members <-> ∀ member ∈ members, member.2.All holds := by
  induction members with
  | nil => exact iff_of_true trivial (forall_mem_nil _)
  | cons member rest ih => rw [allMembers, ih, forall_mem_cons]

lemma sameFields_iff {map : ProtoStruct} :
    SameFields fields map <-> ∀ field ∈ fields,
      ∃ other, (field.1, other) ∈ map ∧ Same field.2 other := by
  induction fields with
  | nil => exact iff_of_true trivial (forall_mem_nil _)
  | cons field rest ih => rw [SameFields, ih, forall_mem_cons]

section

variable {motive : ProtoValue -> Prop} (kindNotSet : motive .kindNotSet)
  (nullValue : motive .nullValue) (numberValue : ∀ value, motive (.numberValue value))
  (stringValue : ∀ value, motive (.stringValue value))
  (boolValue : ∀ value, motive (.boolValue value))
  (structValue : ∀ fields : ProtoStruct,
    (∀ field ∈ fields, motive field.2) -> motive (.structValue fields))
  (listValue : ∀ values : ProtoList, (∀ value ∈ values, motive value) -> motive (.listValue values))

include kindNotSet nullValue numberValue stringValue boolValue structValue listValue

@[elab_as_elim]
lemma ProtoValue.nestedInduction (value : ProtoValue) : motive value := by
  refine @ProtoValue.rec motive (fun fields => ∀ field ∈ fields, motive field.2)
    (fun values => ∀ value ∈ values, motive value) (fun field => motive field.2)
    kindNotSet nullValue numberValue stringValue boolValue structValue listValue
    ?_ ?_ ?_ ?_ ?_ value
  · exact forall_mem_nil _
  · intro field rest ofField ofRest
    exact forall_mem_cons.mpr ⟨ofField, ofRest⟩
  · exact forall_mem_nil _
  · intro value rest ofValue ofRest
    exact forall_mem_cons.mpr ⟨ofValue, ofRest⟩
  · intro key value ofValue
    exact ofValue

end

section

variable {motive : JsonValue -> Prop} (null : motive .null)
  (boolean : ∀ value, motive (.boolean value))
  (integer : ∀ value, motive (.integer value))
  (unsigned : ∀ value, motive (.unsigned value))
  (float : ∀ value, motive (.float value)) (string : ∀ value, motive (.string value))
  (array : ∀ elements : List JsonValue,
    (∀ element ∈ elements, motive element) -> motive (.array elements))
  (object : ∀ members : List (Text × JsonValue),
    (∀ member ∈ members, motive member.2) -> motive (.object members))

include null boolean integer unsigned float string array object

@[elab_as_elim]
lemma JsonValue.nestedInduction (value : JsonValue) : motive value := by
  refine @JsonValue.rec motive (fun elements => ∀ element ∈ elements, motive element)
    (fun members => ∀ member ∈ members, motive member.2)
    (fun member => motive member.2) null boolean integer unsigned float string array object
    ?_ ?_ ?_ ?_ ?_ value
  · exact forall_mem_nil _
  · intro element rest ofElement ofRest
    exact forall_mem_cons.mpr ⟨ofElement, ofRest⟩
  · exact forall_mem_nil _
  · intro member rest ofMember ofRest
    exact forall_mem_cons.mpr ⟨ofMember, ofRest⟩
  · intro name value ofValue
    exact ofValue

end

lemma sameValues_map {values : ProtoList} {convert : ProtoValue -> ProtoValue}
    (same : ∀ value ∈ values, Same (convert value) value) :
    SameValues (values.map convert) values := by
  induction values with
  | nil => trivial
  | cons value rest ih =>
    rcases forall_mem_cons.mp same with ⟨ofValue, ofRest⟩
    exact ⟨ofValue, ih ofRest⟩

lemma fieldsToJson_perm (distinct : (fields.map fst).Nodup) :
    (fieldsToJson [] fields).Perm (fields.map fun field => (field.1, valueToJson field.2)) := by
  have distinctNames : ((fields.map fun field => (field.1, valueToJson field.2)).map
      fst).Nodup := by
    rw [map_map]
    exact distinct
  have perm : (insertAll [] (fields.map fun field => (field.1, valueToJson field.2))).Perm
      ((fields.map fun field => (field.1, valueToJson field.2)) ++ []) :=
    insertAll_perm distinctNames (fun _ _ => not_mem_nil)
  rw [append_nil] at perm
  rw [fieldsToJson_eq]
  exact perm

lemma ascending_fieldsToJson (fields : ProtoStruct) : Ascending (fieldsToJson [] fields) := by
  rw [fieldsToJson_eq]
  exact ascending_insertAll Pairwise.nil

lemma same_struct (distinct : (fields.map fst).Nodup)
    (same : ∀ field ∈ fields, Same (jsonToValue (valueToJson field.2)) field.2) :
    Same (.structValue (jsonToStruct (structToJson fields))) (.structValue fields) := by
  have perm := fieldsToJson_perm distinct
  rw [structToJson, jsonToStruct_object (ascending_fieldsToJson fields)]
  refine ⟨?_, sameFields_iff.mpr ?_⟩
  · have keys := perm.map fst
    rw [map_map] at keys ⊢
    exact keys
  · intro field member
    rcases mem_map.mp member with ⟨converted, isMember, rfl⟩
    rcases mem_map.mp (perm.mem_iff.mp isMember) with ⟨source, isSource, rfl⟩
    exact ⟨source.2, isSource, same source isSource⟩

lemma same_jsonToValue {value : ProtoValue} (distinct : value.All HasDistinctKeys)
    (kinds : value.All HasKind) : Same (jsonToValue (valueToJson value)) value := by
  induction value using ProtoValue.nestedInduction with
  | kindNotSet => exact kinds.elim
  | nullValue => trivial
  | numberValue number => rfl
  | stringValue content => rfl
  | boolValue bit => rfl
  | structValue fields ih =>
    refine same_struct distinct.1 ?_
    intro field member
    exact ih field member (allFields_iff.mp distinct.2 field member)
      (allFields_iff.mp kinds.2 field member)
  | listValue values ih =>
    change SameValues (elementsToValues (elementsToJson values)) values
    rw [elementsToJson_eq, elementsToValues_eq, map_map]
    refine sameValues_map ?_
    intro element member
    exact ih element member (allValues_iff.mp distinct.2 element member)
      (allValues_iff.mp kinds.2 element member)

/-- Equal maps give the same members. -/
lemma fieldsToJson_congr {first second : ProtoStruct} (distinct : (first.map fst).Nodup)
    (sameKeys : (first.map fst).Perm (second.map fst)) (converted : ∀ field ∈ first,
      ∃ other, (field.1, other) ∈ second ∧ valueToJson field.2 = valueToJson other) :
    fieldsToJson [] first = fieldsToJson [] second := by
  have distinctNames : ((first.map fun field => (field.1, valueToJson field.2)).map fst).Nodup := by
    rw [map_map]
    exact distinct
  have included : (first.map fun field => (field.1, valueToJson field.2)) ⊆
      second.map fun field => (field.1, valueToJson field.2) := by
    intro member isMember
    rcases mem_map.mp isMember with ⟨field, isField, rfl⟩
    rcases converted field isField with ⟨other, isOther, same⟩
    exact mem_map.mpr ⟨(field.1, other), isOther, by rw [same]⟩
  have asMany : second.length <= first.length := by
    have lengths := sameKeys.length_eq
    rw [length_map, length_map] at lengths
    exact lengths.ge
  have perm : (first.map fun field => (field.1, valueToJson field.2)).Perm
      (second.map fun field => (field.1, valueToJson field.2)) := by
    refine (subperm_of_subset (Nodup.of_map _ distinctNames) included).perm_of_length_le ?_
    rw [length_map, length_map]
    exact asMany
  rw [fieldsToJson_eq, fieldsToJson_eq]
  exact insertAll_congr perm distinctNames

lemma elementsToJson_congr {first second : ProtoList} (same : SameValues first second)
    (converted : ∀ value ∈ first, ∀ other, Same value other ->
      valueToJson value = valueToJson other) : elementsToJson first = elementsToJson second := by
  induction first generalizing second with
  | nil =>
    cases second with
    | nil => rfl
    | cons other others => exact same.elim
  | cons value rest ih =>
    cases second with
    | nil => exact same.elim
    | cons other others =>
      rcases forall_mem_cons.mp converted with ⟨ofValue, ofRest⟩
      rw [elementsToJson, elementsToJson, ofValue other same.1, ih same.2 ofRest]

lemma valueToJson_congr {first second : ProtoValue} (distinct : first.All HasDistinctKeys)
    (same : Same first second) : valueToJson first = valueToJson second := by
  induction first using ProtoValue.nestedInduction generalizing second with
  | kindNotSet =>
    cases second with
    | kindNotSet => rfl
    | _ => exact same.elim
  | nullValue =>
    cases second with
    | nullValue => rfl
    | _ => exact same.elim
  | numberValue number =>
    cases second with
    | numberValue other => exact congrArg JsonValue.float same
    | _ => exact same.elim
  | stringValue content =>
    cases second with
    | stringValue other => exact congrArg JsonValue.string same
    | _ => exact same.elim
  | boolValue bit =>
    cases second with
    | boolValue other => exact congrArg JsonValue.boolean same
    | _ => exact same.elim
  | structValue fields ih =>
    cases second with
    | structValue others =>
      rcases same with ⟨sameKeys, sameFields⟩
      refine congrArg JsonValue.object (fieldsToJson_congr distinct.1 sameKeys ?_)
      intro field member
      rcases sameFields_iff.mp sameFields field member with ⟨other, isOther, sameValue⟩
      exact ⟨other, isOther, ih field member (allFields_iff.mp distinct.2 field member) sameValue⟩
    | _ => exact same.elim
  | listValue values ih =>
    cases second with
    | listValue others =>
      refine congrArg JsonValue.array (elementsToJson_congr same ?_)
      intro element member other sameValue
      exact ih element member (allValues_iff.mp distinct.2 element member) sameValue
    | _ => exact same.elim

lemma roundToBits_exact {n : Int} (small : |n| <= 2 ^ 53) : roundToBits 53 n = n := by
  have bounds := abs_le.mp small
  by_cases inside : n.natAbs < 2 ^ 53
  · exact roundToBits_small inside
  · have extreme : n = 2 ^ 53 ∨ n = -2 ^ 53 := by omega
    rcases extreme with rfl | rfl
    · decide
    · decide

lemma alikeElements_map {elements : List JsonValue} {convert : JsonValue -> JsonValue}
    (alike : ∀ element ∈ elements, Alike (convert element) element) :
    AlikeElements (elements.map convert) elements := by
  induction elements with
  | nil => trivial
  | cons element rest ih =>
    rcases forall_mem_cons.mp alike with ⟨ofElement, ofRest⟩
    exact ⟨ofElement, ih ofRest⟩

lemma alikeMembers_map {members : List (Text × JsonValue)} {convert : JsonValue -> JsonValue}
    (alike : ∀ member ∈ members, Alike (convert member.2) member.2) :
    AlikeMembers (members.map fun member => (member.1, convert member.2)) members := by
  induction members with
  | nil => trivial
  | cons member rest ih =>
    rcases forall_mem_cons.mp alike with ⟨ofMember, ofRest⟩
    exact ⟨⟨rfl, ofMember⟩, ih ofRest⟩

lemma fieldsToJson_map (ordered : Ascending members) :
    fieldsToJson [] (members.map fun member => (member.1, jsonToValue member.2)) =
      members.map fun member => (member.1, valueToJson (jsonToValue member.2)) := by
  have stillOrdered :
      Ascending (members.map fun member => (member.1, valueToJson (jsonToValue member.2))) :=
    pairwise_map.mpr ordered
  rw [fieldsToJson_eq, map_map]
  exact insertAll_ascending stillOrdered

lemma alike_valueToJson {json : JsonValue} (ordered : json.All IsOrdered)
    (exactIntegers : json.All IsExact) : Alike (valueToJson (jsonToValue json)) json := by
  induction json using JsonValue.nestedInduction with
  | null => trivial
  | boolean bit => rfl
  | integer number =>
    refine ⟨_, ?_, rfl⟩
    change some (Double.ofInteger number.toInt) = _
    rw [Double.ofInteger, roundToBits_exact exactIntegers]
  | unsigned number =>
    have small : |(number.toNat : Int)| <= 2 ^ 53 := by
      have bound : number.toNat <= 2 ^ 53 := exactIntegers
      exact abs_le.mpr (by omega)
    refine ⟨_, ?_, rfl⟩
    change some (Double.ofInteger number.toNat) = _
    rw [Double.ofInteger, roundToBits_exact small]
    rfl
  | float number => exact ⟨number, rfl, rfl⟩
  | string content => rfl
  | array elements ih =>
    change AlikeElements (elementsToJson (elementsToValues elements)) elements
    rw [elementsToJson_eq, elementsToValues_eq, map_map]
    refine alikeElements_map ?_
    intro element member
    exact ih element member (allElements_iff.mp ordered.2 element member)
      (allElements_iff.mp exactIntegers.2 element member)
  | object members ih =>
    have isObject : Ascending members := ordered.1
    change AlikeMembers (fieldsToJson [] (jsonToStruct (.object members))) members
    rw [jsonToStruct_object isObject, fieldsToJson_map isObject]
    refine @alikeMembers_map members (fun value => valueToJson (jsonToValue value)) ?_
    intro member isMember
    exact ih member isMember (allMembers_iff.mp ordered.2 member isMember)
      (allMembers_iff.mp exactIntegers.2 member isMember)

/-- Values with a kind come back from JSON, and JSON values with exact integers from protos,
whatever the order of iteration. -/
theorem structConversion_survives :
    (∀ value : ProtoValue, value.All HasDistinctKeys -> value.All HasKind ->
      Same (jsonToValue (valueToJson value)) value) ∧
    (∀ json : JsonValue, json.All IsOrdered -> json.All IsExact ->
      Alike (valueToJson (jsonToValue json)) json) ∧
    (∀ first second : ProtoValue, first.All HasDistinctKeys -> Same first second ->
      valueToJson first = valueToJson second) ∧
    (∀ message : ProtoStruct, (ProtoValue.structValue message).All HasDistinctKeys ->
      (ProtoValue.structValue message).All HasKind ->
      Same (.structValue (jsonToStruct (structToJson message))) (.structValue message)) ∧
    (∀ members, (JsonValue.object members).All IsOrdered ->
      (JsonValue.object members).All IsExact ->
      Alike (structToJson (jsonToStruct (.object members))) (.object members)) ∧
    (∀ message : ProtoList, (ProtoValue.listValue message).All HasDistinctKeys ->
      (ProtoValue.listValue message).All HasKind ->
      Same (.listValue (jsonToListValue (listValueToJson message))) (.listValue message)) ∧
    ∀ elements, (JsonValue.array elements).All IsOrdered ->
      (JsonValue.array elements).All IsExact ->
      Alike (listValueToJson (jsonToListValue (.array elements))) (.array elements) := by
  refine ⟨?_, ?_, ?_, ?_, ?_, ?_, ?_⟩
  · intro value distinct kinds
    exact same_jsonToValue distinct kinds
  · intro json ordered exactIntegers
    exact alike_valueToJson ordered exactIntegers
  · intro first second distinct same
    exact valueToJson_congr distinct same
  · intro message distinct kinds
    exact same_jsonToValue distinct kinds
  · intro members ordered exactIntegers
    exact alike_valueToJson ordered exactIntegers
  · intro message distinct kinds
    exact same_jsonToValue distinct kinds
  · intro elements ordered exactIntegers
    exact alike_valueToJson ordered exactIntegers

end Ecclesia.StructConversion
