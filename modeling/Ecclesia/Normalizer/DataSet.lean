import Ecclesia.Normalizer.Default

namespace Ecclesia.Normalizer
namespace DataSet

open Absl
open Planner (propertyOdataId)

/-!
# The normaliser of subquery data sets

The older query engine has a default normaliser of its own.  It stores the properties
of a subquery in a `SubqueryDataSet`, one after the other, with the location and the URI
of the resource beside them.  The definitions follow `NormalizerImplDefault` in the
`normalizer.cc` of that engine.
-/

/-- `SubqueryDataSet::Property::PropertyValue` -/
inductive PropertyValue where
  | notSet
  | string (value : Text)
  | double (value : Rat)
  | int64 (value : Int)
  | boolean (value : Bool)
  | timestamp (seconds nanos : Int)

/-- `SubqueryDataSet::Property`.  A collection is set by its first value. -/
structure Property where
  name : Text
  value : PropertyValue
  collectionValue : List PropertyValue

/-- `SubqueryDataSet::RedfishLocation` -/
structure Location where
  serviceLabel : Text
  partLocationContext : Text
  embeddedLocationContext : Text

structure SubqueryDataSet where
  devpath : Option Text
  properties : List Property
  redfishLocation : Option Location
  uriAnnotation : Option Text

variable (library : ValueLibrary)

def timestampOf (value : Text) : Option (Int × Int) :=
  (library.parseTime value).bind fun time => (abslTimeToProtoTime time).toOption

/-- What is stored for a text of the type `DATE_TIME_OFFSET`. -/
def timestampValue (value : Text) : PropertyValue :=
  match timestampOf library value with
  | some (seconds, nanos) => .timestamp seconds nanos
  | none => .notSet

/-- `get<T>()` with the C++ type of a property.  The conversion throws at a value of another
type. -/
def getAs : PrimitiveType -> Json -> Evaluation PropertyValue
  | .string, .string value => .ok (.string value)
  | .boolean, .boolean value => .ok (.boolean value)
  | .double, .integer value => .ok (.double (library.toDouble value))
  | .double, .unsigned value => .ok (.double (library.toDouble value))
  | .double, .float value => .ok (.double value)
  | .int64, .integer value => .ok (.int64 value)
  | .int64, .unsigned value => .ok (.int64 (Int.bmod value (2 ^ 64)))
  | .int64, .float value => .ok (.int64 (library.toInt64 value))
  | .dateTimeOffset, .string value => .ok (timestampValue library value)
  | .undefined, _ => .ok .notSet
  | _, _ => .error (.exception (text "type_error.302"))

/-- The values of a collection of time stamps.  The loop ends at the first element that is
no string. -/
def timestampValues (elements : List Json) : List PropertyValue :=
  (elements.takeWhile Json.isString).filterMap fun element =>
    (element.string?.bind (timestampOf library)).map fun (seconds, nanos) =>
      .timestamp seconds nanos

/-- `GetCollectionPropertyFromRedfishObject`.  An array is converted as a whole, whatever
its elements are. -/
def getCollectionPropertyFromRedfishObject (property : RedfishProperty) (json : Json) :
    Evaluation Property :=
  match json with
  | .array elements =>
    match property.type with
    | .dateTimeOffset => .ok ⟨[], .notSet, timestampValues library elements⟩
    | .undefined => .ok ⟨[], .notSet, []⟩
    | type => do
        let values <- elements.mapM (getAs library type)
        .ok ⟨[], .notSet, values⟩
  | _ => .invalidArgument
      (text "Tried to get array property from non array json object: " ++ library.dump json)

/-- How a single value of the type is called in a message. -/
def scalarWording : PrimitiveType -> Text
  | .string => text " as a string from non string object: "
  | .boolean => text " as a boolean from non boolean object: "
  | .double | .int64 => text " as a number from non number object: "
  | .dateTimeOffset => text " as a timestamp from non string object: "
  | .undefined => []

def getPropertyFromRedfishObject (content : Json) (property : RedfishProperty) :
    Evaluation Property := do
  let json <- PathUtil.resolveRedPathNodeToJson content property.property
  if property.propertyElementType = .collectionPrimitive then
    getCollectionPropertyFromRedfishObject library property json
  else if json.isNull then
    .ok ⟨[], .notSet, []⟩
  else if isOfType property.type json then do
    let value <- getAs library property.type json
    .ok ⟨[], value, []⟩
  else .invalidArgument (text "Error querying property " ++ property.property ++
    scalarWording property.type ++ library.dump json)

/-- One round of the loop over the properties of a subquery. -/
def withProperty (content : Json) (dataSet : SubqueryDataSet) (property : RedfishProperty) :
    Evaluation SubqueryDataSet :=
  match getPropertyFromRedfishObject library content property with
  | .ok value => .ok { dataSet with
      properties := dataSet.properties ++ [{ value with name := emittedName property }] }
  | .error (.status status) =>
    if status.code = .invalidArgument then .error (.status status) else .ok dataSet
  | .error (.exception what) => .error (.exception what)

/-- `mutable_string_value()`, which is empty for another kind of value. -/
def mutableStringValue : PropertyValue -> Text
  | .string value => value
  | _ => []

def mutableRedfishLocation (dataSet : SubqueryDataSet) : Location :=
  dataSet.redfishLocation.getD ⟨[], [], []⟩

def storeAdditional (property : RedfishProperty) (value : Text) (dataSet : SubqueryDataSet) :
    SubqueryDataSet :=
  let location := mutableRedfishLocation dataSet
  if property.name = kServiceLabel then
    { dataSet with redfishLocation := some { location with serviceLabel := value } }
  else if property.name = kPartLocationContext then
    { dataSet with redfishLocation := some { location with partLocationContext := value } }
  else if property.name = kLocalDevpath then
    { dataSet with devpath := some value }
  else if property.name = kEmbeddedLocationContext then
    { dataSet with redfishLocation := some { location with embeddedLocationContext := value } }
  else dataSet

/-- One round of the loop over the additional properties, which no status ends. -/
def withAdditionalProperty (content : Json) (dataSet : SubqueryDataSet)
    (property : RedfishProperty) : Evaluation SubqueryDataSet :=
  match getPropertyFromRedfishObject library content property with
  | .ok value => .ok (storeAdditional property (mutableStringValue value.value) dataSet)
  | .error (.status _) => .ok dataSet
  | .error (.exception what) => .error (.exception what)

variable {World Object Iterable : Type}

/-- `NormalizerImplDefault::Normalize` -/
def normalize (views : RedfishViews World Object Iterable) (object : Object)
    (subquery : Subquery) (dataSetLocal : SubqueryDataSet) (urlAnnotationEnabled : Bool) :
    StateM World (Evaluation SubqueryDataSet) :=
  let content := views.getContentAsJson object
  let filled : Evaluation SubqueryDataSet := do
    let own <- subquery.properties.foldlM (withProperty library content) dataSetLocal
    getAdditionalProperties.foldlM (withAdditionalProperty library content) own
  match filled with
  | .error failure => return .error failure
  | .ok dataSet =>
    if urlAnnotationEnabled then do
      let odataId <- views.getNodeValue object propertyOdataId
      return .ok { dataSet with uriAnnotation := odataId.or dataSet.uriAnnotation }
    else return .ok dataSet

end DataSet
end Ecclesia.Normalizer
