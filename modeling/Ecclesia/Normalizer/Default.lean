import Ecclesia.Planner.Normalize

namespace Ecclesia.Normalizer

open Absl
open Planner (kIdentifierTag propertyOdataId)

/-!
# The default normaliser

The default normaliser turns the payload of a resource into a data set: it stores a
value for every property of the subquery that the resource has, an identifier that
is made from the location of the resource, and the URI of the resource if this is
asked for.  The definitions follow `RedpathNormalizerImplDefault` in `normalizer.cc`.

Conversions between numbers, the parser of time stamps and the texts of JSON values
belong to other libraries and are parameters.
-/

/-- `absl::Time`, in quarters of a nanosecond since the epoch. -/
inductive Time where
  | infinitePast
  | finite (ticks : Int)
  | infiniteFuture

/-- `AbslTimeToProtoTime`: the seconds and the nanoseconds of a time stamp. -/
def abslTimeToProtoTime (timestamp : Time) : StatusOr (Int × Int) :=
  let early : StatusOr (Int × Int) := .error (.internal (text
    "timestamps earlier than UnixEpoch cannot be converted to protobuf::Timestamp."))
  match timestamp with
  | .infinitePast => early
  | .finite ticks =>
    if ticks < 0 then early else .ok (ticks / 4000000000, ticks % 4000000000 / 4)
  | .infiniteFuture => .error (.internal (text
      "InfiniteFuture timestamp cannot be converted to protobuf::Timestamp."))

/-- The functions of other libraries that the normaliser calls. -/
structure ValueLibrary where
  /-- `absl::ParseTime` with `kRFC3339DateTime` -/
  parseTime : Text -> Option Time
  /-- the conversion of an integer to a double -/
  toDouble : Int -> Rat
  /-- `static_cast<int64_t>` of a double -/
  toInt64 : Rat -> Int
  /-- `dump()`, used in messages only -/
  dump : Json -> Text

section

variable (library : ValueLibrary)

/-- Whether a JSON value can be read as the type of a property. -/
def isOfType : PrimitiveType -> Json -> Bool
  | .string, .string _ | .dateTimeOffset, .string _ => true
  | .boolean, .boolean _ => true
  | .double, .integer _ | .double, .unsigned _ | .double, .float _ => true
  | .int64, .integer _ | .int64, .unsigned _ | .int64, .float _ => true
  | .undefined, _ => true
  | _, _ => false

/-- The value of a time stamp, which is not set if it cannot be converted. -/
def timestampValue (value : Text) : QueryValue :=
  match library.parseTime value with
  | none => .notSet
  | some time =>
    match abslTimeToProtoTime time with
    | .ok (seconds, nanos) => .timestamp seconds nanos
    | .error _ => .notSet

/-- What is set in a `QueryValue` for a JSON value of the type. -/
def primitiveValue : PrimitiveType -> Json -> QueryValue
  | .string, .string value => .string value
  | .boolean, .boolean value => .bool value
  | .double, .integer value => .double (library.toDouble value)
  | .double, .unsigned value => .double (library.toDouble value)
  | .double, .float value => .double value
  | .int64, .integer value => .int value
  | .int64, .unsigned value => .int (Int.bmod value (2 ^ 64))
  | .int64, .float value => .int (library.toInt64 value)
  | .dateTimeOffset, .string value => timestampValue library value
  | _, _ => .notSet

def arrayWording : PrimitiveType -> Text
  | .string => text " as string array from object: "
  | .boolean => text " as boolean array from object: "
  | .double | .int64 => text " as number array from object: "
  | .dateTimeOffset => text " as a timestamp string from non string object: "
  | .undefined => []

/-- How a single value of the type is called in a message. -/
def scalarWording : PrimitiveType -> Text
  | .string => text " as a string from non string object: "
  | .boolean => text " as a boolean from non boolean object: "
  | .double => text " as a number from non number object: "
  | .int64 => text " as an number from non number object: "
  | .dateTimeOffset => text " as a timestamp string from non string object: "
  | .undefined => []

def isSet : QueryValue -> Bool
  | .notSet => false
  | _ => true

/-- A list value, which stays unset while no element is added to it. -/
def listOf : List QueryValue -> QueryValue
  | [] => .notSet
  | value :: values => .list (value :: values)

/-- `GetCollectionPropertyFromRedfishObject`: every value that can be converted is added. -/
def getCollectionPropertyFromRedfishObject (property : RedfishProperty) (json : Json) :
    Evaluation QueryValue :=
  match json with
  | .array elements =>
    if elements.all (isOfType property.type) then
      .ok (listOf ((elements.map (primitiveValue library property.type)).filter isSet))
    else .invalidArgument (text "Error querying property " ++ property.property ++
      arrayWording property.type ++ library.dump json)
  | _ => .invalidArgument
      (text "Tried to get array property from non array json object: " ++ library.dump json)

/-- The value for the node of a property, before it is checked that it is set. -/
def nodeValue (property : RedfishProperty) (json : Json) : Evaluation QueryValue :=
  if property.propertyElementType = .collectionPrimitive then
    if json.isEmpty then
      .error (.status (.notFound
        (text "Encountered empty collection property value during normalization. Property: " ++
          property.property ++ text " JSON: " ++ library.dump json)))
    else getCollectionPropertyFromRedfishObject library property json
  else if json.isNull then
    if property.nullable then .ok .null
    else .error (.status (.notFound
      (text "Encountered null property value during normalization. Property: " ++
        property.property ++ text " JSON: " ++ library.dump json)))
  else if isOfType property.type json then .ok (primitiveValue library property.type json)
  else .invalidArgument (text "Error querying property " ++ property.property ++
    scalarWording property.type ++ library.dump json)

def getPropertyFromRedfishObject (content : Json) (property : RedfishProperty) :
    Evaluation QueryValue := do
  let json <- PathUtil.resolveRedPathNodeToJson content property.property
  let value <- nodeValue library property json
  if isSet value then .ok value
  else .invalidArgument (text "Property `" ++ property.property ++
    text "` cannot be parsed from the redfish object: " ++ library.dump content)

/-- One round of a loop over properties, which passes over what cannot be had. -/
def withProperty {State : Type} (content : Json)
    (store : RedfishProperty -> QueryValue -> State -> State) (state : State)
    (property : RedfishProperty) : Evaluation State :=
  match getPropertyFromRedfishObject library content property with
  | .ok value => .ok (store property value state)
  | .error (.status status) =>
    if status.code = .invalidArgument then .error (.status status) else .ok state
  | .error (.exception what) => .error (.exception what)

end

/-- The name under which the value of a property is stored. -/
def emittedName (property : RedfishProperty) : Text :=
  if property.name.isEmpty then strReplaceAll property.property [(text "\\.", text ".")]
  else property.name

def storeProperty (property : RedfishProperty) (value : QueryValue) (fields : QueryResultData) :
    QueryResultData :=
  setField (emittedName property) value fields

def kUriAnnotationTag : Text := text "_uri_"
def kEmbeddedLocationContext : Text := text "__EmbeddedLocationContext__"
def kServiceLabel : Text := text "__ServiceLabel__"
def kPartLocationContext : Text := text "__PartLocationContext__"
def kLocalDevpath : Text := text "__LocalDevpath__"

/-- `add_property`, without its use for collections. -/
def addProperty (name : Text) (properties : List Text) : List RedfishProperty :=
  properties.map fun property => ⟨property, name, [], .string, .unspecified, false⟩

def getAdditionalProperties : List RedfishProperty :=
  addProperty kServiceLabel
      [text "Location.PartLocation.ServiceLabel",
        text "PhysicalLocation.PartLocation.ServiceLabel",
        text "Oem.Google.Location.PartLocation.ServiceLabel",
        text "Oem.Google.PhysicalLocation.PartLocation.ServiceLabel"] ++
    addProperty kPartLocationContext
      [text "Location.PartLocationContext", text "PhysicalLocation.PartLocationContext",
        text "Oem.Google.Location.PartLocationContext",
        text "Oem.Google.PhysicalLocation.PartLocationContext"] ++
    addProperty kEmbeddedLocationContext
      [text "Location.Oem.Google.EmbeddedLocationContext",
        text "PhysicalLocation.Oem.Google.EmbeddedLocationContext",
        text "Oem.Google.Location.Oem.Google.EmbeddedLocationContext",
        text "Oem.Google.PhysicalLocation.Oem.Google.EmbeddedLocationContext"] ++
    addProperty kLocalDevpath
      [text "Location.Oem.Google.Devpath", text "PhysicalLocation.Oem.Google.Devpath",
        text "Oem.Google.Location.Oem.Google.Devpath",
        text "Oem.Google.PhysicalLocation.Oem.Google.Devpath"]

def mutableRedfishLocation (identifier : Identifier) : RedfishLocation :=
  identifier.redfishLocation.getD ⟨[], none⟩

/-- `string_value()`, which is empty for another kind of value. -/
def stringValue : QueryValue -> Text
  | .string value => value
  | _ => []

def storeInIdentifier (property : RedfishProperty) (value : QueryValue)
    (identifier : Identifier) : Identifier :=
  if property.name = kServiceLabel then
    { identifier with
      redfishLocation := some
        { mutableRedfishLocation identifier with serviceLabel := stringValue value } }
  else if property.name = kPartLocationContext then
    { identifier with
      redfishLocation := some
        { mutableRedfishLocation identifier with
          partLocationContext := some (stringValue value) } }
  else if property.name = kLocalDevpath then
    { identifier with localDevpath := some (stringValue value) }
  else if property.name = kEmbeddedLocationContext then
    { identifier with embeddedLocationContext := some (stringValue value) }
  else identifier

/-- `IsRootChassis`, for the type of a resource and the identifier that its data set holds
already. -/
def isRootChassis (resourceType : Text) (identifier : Identifier) : Bool :=
  let location := mutableRedfishLocation identifier
  strContains resourceType (text "#Chassis.") && location.serviceLabel.isEmpty &&
    (location.partLocationContext.getD []).isEmpty

variable (library : ValueLibrary)

def addIdentifier (content : Json) (resourceType : Text) (fields : QueryResultData) :
    Evaluation QueryResultData := do
  let held := ((fields.lookup kIdentifierTag).bind QueryValue.identifier?).getD .empty
  let start : Identifier :=
    if isRootChassis resourceType held then { Identifier.empty with isRoot := some true }
    else .empty
  let identifier <- getAdditionalProperties.foldlM
    (withProperty library content storeInIdentifier) start
  if identifier = .empty then .ok fields
  else .ok (setField kIdentifierTag (.identifier identifier) fields)

/-- Add the URI of the resource to a data set. -/
def annotateUri (content : Json) (urlAnnotationEnabled : Bool) (fields : QueryResultData) :
    Evaluation QueryResultData :=
  if urlAnnotationEnabled then
    match content.find propertyOdataId with
    | none => .ok fields
    | some member => do
        let uri <- member.getString
        .ok (setField kUriAnnotationTag (.string uri) fields)
  else .ok fields

variable {World Object Iterable : Type}

/-- `RedpathNormalizerImplDefault::Normalize` -/
def normalize (views : RedfishViews World Object Iterable) (object : Object)
    (subquery : Subquery) (dataSetLocal : QueryResultData) (urlAnnotationEnabled : Bool) :
    StateM World (Evaluation QueryResultData) :=
  let content := views.getContentAsJson object
  match subquery.properties.foldlM (withProperty library content storeProperty) dataSetLocal with
  | .error failure => return .error failure
  | .ok fields => do
      let resourceType <- views.getNodeValue object (text "@odata.type")
      return do
        let identified <- addIdentifier library content (resourceType.getD []) fields
        annotateUri content urlAnnotationEnabled identified

end Ecclesia.Normalizer
