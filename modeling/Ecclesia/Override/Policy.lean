import Ecclesia.Json.Value
import Ecclesia.Library.Assoc

namespace Ecclesia.Override

open Json

/-!
# Override policies and their actions

A policy has the override fields of URIs and of regular expressions.  A field identifies a
part of a JSON value by a list of steps and replaces it, adds to it, or clears it.  A field
that does not fit the value is refused with a status; some throw an exception of the JSON
library instead.

How the library compares two values is a parameter.
-/

/-- `google::protobuf::Value`.  The fields of a struct come in the order of their
iteration. -/
inductive ProtoValue where
  | kindNotSet
  | nullValue
  | numberValue (value : Rat)
  | stringValue (value : Text)
  | boolValue (value : Bool)
  | structValue (fields : List (Text × ProtoValue))
  | listValue (values : List ProtoValue)

mutual

def valueToJson : ProtoValue -> Json
  | .kindNotSet => .object []
  | .nullValue => .null
  | .numberValue value => .float value
  | .stringValue value => .string value
  | .boolValue value => .boolean value
  | .structValue fields =>
    .object ((fieldsToJson fields).foldl
      (fun members field => insertMember field.1 field.2 members) [])
  | .listValue values => .array (valuesToJson values)

/-- The values of the fields for `StructToJson`. -/
def fieldsToJson : List (Text × ProtoValue) -> List (Text × Json)
  | [] => []
  | (key, value) :: rest => (key, valueToJson value) :: fieldsToJson rest

/-- The values of the elements for `ListValueToJson`. -/
def valuesToJson : List ProtoValue -> List Json
  | [] => []
  | value :: rest => valueToJson value :: valuesToJson rest

end

inductive IndividualObjectIdentifier where
  | fieldName (name : Text)
  | arrayField (fieldName : Text) (value : ProtoValue)
  | arrayIdx (index : Int)
  | notSet

inductive OverrideValue where
  | value (value : ProtoValue)
  | overrideByReading
  | notSet

/-- The action of an `OverrideField`, apart from its `ObjectIdentifier`. -/
inductive Action where
  | replace (overrideValue : OverrideValue)
  | add (overrideValue : OverrideValue)
  | clear

/-- `OverrideField`.  `isExpand` is the flag of its apply condition, if it has one. -/
structure OverrideField where
  action : Option (Action × List IndividualObjectIdentifier)
  isExpand : Option Bool

/-- `OverridePolicy`.  The regular expressions come in the order of their iteration. -/
structure OverridePolicy where
  overrideContentMapUri : HashMap Text (List OverrideField)
  overrideContentMapRegex : List (Text × List OverrideField)

def jsonReplace (json : Json) (overrideValue : OverrideValue) : Evaluation Json :=
  match overrideValue with
  | .value value =>
    let replaceJson := valueToJson value
    if json.type ≠ replaceJson.type then
      .invalidArgument (text "Value type is different from original type")
    else .ok replaceJson
  | .overrideByReading => .error (.status ⟨.unimplemented, text "To be implemented"⟩)
  | .notSet => .invalidArgument (text "Replace Json not found.")

/-- Where a value is added: under a name, or at the end of an array under a name or in an array. -/
def jsonAddValue (json : Json) (identifier : IndividualObjectIdentifier) (addJson : Json) :
    Evaluation Json :=
  match identifier with
  | .fieldName name =>
    match json.find name with
    | some (.array elements) => .ok (json.updateMember name (.array (elements ++ [addJson])))
    | some _ => .invalidArgument (text "Json field already exist.")
    | none => json.assign name addJson
  | .arrayField _ _ =>
    .invalidArgument (text "Please specify a field before adding inside an array type json")
  | .arrayIdx index =>
    match json with
    | .array elements =>
      -- The index is converted to an unsigned number, so a negative one is out of range.
      if index < 0 then .invalidArgument (text "index is out of array range")
      else
        match elements[index.toNat]? with
        | none => .invalidArgument (text "index is out of array range")
        | some (.array inner) =>
          .ok (.array (elements.set index.toNat (.array (inner ++ [addJson]))))
        | some _ =>
          .invalidArgument (text "Please specify a field before adding inside an array type json")
    | _ => .invalidArgument (text "Json is not an array type")
  | .notSet => .invalidArgument (text "Added Json not found.")

def jsonAdd (json : Json) (identifier : IndividualObjectIdentifier)
    (overrideValue : OverrideValue) : Evaluation Json :=
  match overrideValue with
  | .value value => jsonAddValue json identifier (valueToJson value)
  | .overrideByReading => .error (.status ⟨.unimplemented, text "To be implemented"⟩)
  | .notSet => .invalidArgument (text "Added Json not found.")

variable (equals : Json -> Json -> Bool)

def hasField (fieldName : Text) (value : ProtoValue) (element : Json) : Bool :=
  match element.find fieldName with
  | some found => equals found (valueToJson value)
  | none => false

def jsonClear (json : Json) (identifier : IndividualObjectIdentifier) : Evaluation Json :=
  match identifier with
  | .fieldName name =>
    match json with
    | .object members =>
      match members.lookup name with
      | none => .error (.status (.notFound (text "Cleared Json field not found.")))
      | some _ => .ok ((Json.object members).eraseMember name)
    | _ => .invalidArgument (text "Json is not an object type")
  | .arrayField fieldName value =>
    match json with
    | .array elements =>
      match elements.findIdx? (hasField equals fieldName value) with
      | some index => .ok (.array (elements.eraseIdx index))
      | none => .invalidArgument (text "Cleared Json not found.")
    | _ => .invalidArgument (text "Json is not an array type")
  | .arrayIdx index =>
    match json with
    | .array elements =>
      if index < 0 ∨ elements.length <= index.toNat then
        .invalidArgument (text "index is out of array range")
      else .ok (.array (elements.eraseIdx index.toNat))
    | _ => .invalidArgument (text "Json is not an array type")
  | .notSet => .invalidArgument (text "Cleared Json not found.")

/-- Act on the part of a value that an identifier leads to. -/
def stepDown (act : Json -> Evaluation Json) (identifier : IndividualObjectIdentifier)
    (json : Json) : Evaluation Json :=
  match identifier with
  | .fieldName name =>
    match json.find name with
    | some found => (act found).map (json.updateMember name)
    | none => .invalidArgument (text "Required Json not found.")
  | .arrayField fieldName value =>
    match json with
    | .array elements =>
      match elements.findIdx? (hasField equals fieldName value) with
      | some index =>
        (act (elements.getD index .null)).map fun acted => .array (elements.set index acted)
      | none => .invalidArgument (text "Required Json not found.")
    | _ => .invalidArgument (text "Json is not an array type")
  | .arrayIdx index =>
    match json with
    | .array elements =>
      if index < 0 then .invalidArgument (text "index is out of array range")
      else
        match elements[index.toNat]? with
        | none => .invalidArgument (text "index is out of array range")
        | some found =>
          (act found).map fun acted => .array (elements.set index.toNat acted)
    | _ => .invalidArgument (text "Json is not an array type")
  | .notSet => .invalidArgument (text "Required Json not found.")

/-- `FindObjectAndAct` on the identifiers from an index on, which an action may read past. -/
def findObjectAndAct (action : Action) :
    List IndividualObjectIdentifier -> Json -> Evaluation Json
  | [], json =>
    match action with
    | .replace overrideValue => jsonReplace json overrideValue
    | _ => .error (.exception (text "RepeatedPtrField::Get"))
  | identifier :: rest, json =>
    match action, rest with
    | .add overrideValue, [] => jsonAdd json identifier overrideValue
    | .clear, [] => jsonClear equals json identifier
    | _, _ => stepDown equals (findObjectAndAct action rest) identifier json

def resultUpdateHelper (field : OverrideField) (json : Json) : Evaluation Json :=
  match field.action with
  | some (action, identifiers) => findObjectAndAct equals action identifiers json
  | none => .invalidArgument (text "No action specified")

end Ecclesia.Override
