import Ecclesia.Planner.Context

namespace Ecclesia.Planner

open Absl

/-!
# Normalisation of a resource

`TryNormalize` builds the value of a subquery from the resource of a context
and stores it in the result, below the result of a root subquery if one is
known to the context and at the top otherwise.  `ApplyCollectAs` additionally
collects properties across all resources.
-/

variable {World Object Iterable : Type}

section

variable (planner : QueryPlanner World Object Iterable)

def kIdentifierTag : Text := text "_id_"

def createSensorIdentifier (object : Object) : StateM World (Option SensorIdentifier) := do
  let resourceType <- planner.views.getNodeValue object (text "@odata.type")
  match resourceType with
  | none => return none
  | some type =>
    if strContains type (text "Sensor") then do
      let name <- planner.views.getNodeValue object (text "Name")
      let readingType <- planner.views.getNodeValue object (text "ReadingType")
      let readingUnits <- planner.views.getNodeValue object (text "ReadingUnits")
      return some ⟨name.getD [], readingType.getD [], readingUnits.getD []⟩
    else return none

/-- The identifier of the resource at a URI, from its normalisation under an empty
subquery. -/
def identifierAtUri (interface : RedfishInterface World Object Iterable) (uri : Text)
    (urlAnnotationEnabled : Bool) : StateM World (Option Identifier) := do
  let variant <- interface.cachedGetUri uri { timeoutManager := planner.hasTimeoutManager }
  if variant.status.isOk then
    match variant.object with
    | none => return none
    | some object => do
        let normalized <- planner.normalizer object .empty urlAnnotationEnabled
        match normalized with
        | .error _ => return none
        | .ok fields => return (fields.lookup kIdentifierTag).bind QueryValue.identifier?
  else return none

def relatedItemUri (content : Json) : Option Text :=
  match content.find (text "RelatedItem") with
  | some (.array (first :: _)) => (first.find propertyOdataId).bind Json.string?
  | _ => none

def getRelatedItemIdentifier (interface : Option (RedfishInterface World Object Iterable))
    (object : Object) (urlAnnotationEnabled : Bool) : StateM World (Option Identifier) :=
  match interface with
  | none => return none
  | some interface =>
    match relatedItemUri (planner.views.getContentAsJson object) with
    | none => return none
    | some uri => identifierAtUri planner interface uri urlAnnotationEnabled

/-- The URI of the chassis of a PCIe device. -/
def pcieChassisUri (content : Json) : Option Text :=
  match (content.find (text "@odata.type")).bind Json.string? with
  | none => none
  | some type =>
    if endsWith type (text "PCIeDevice") then
      ((content.find (text "Links")).bind fun links =>
        (links.find (text "Chassis")).bind fun chassis =>
          chassis.find propertyOdataId).bind Json.string?
    else none

def getPcieDeviceIdentifier (interface : Option (RedfishInterface World Object Iterable))
    (object : Object) (urlAnnotationEnabled : Bool) : StateM World (Option Identifier) :=
  match interface with
  | none => return none
  | some interface =>
    match pcieChassisUri (planner.views.getContentAsJson object) with
    | none => return none
    | some uri => identifierAtUri planner interface uri urlAnnotationEnabled

end

/-- The identifiers that `ApplyCollectAs` hands out. One that was moved from is empty, but still
there. -/
structure CollectIdentifiers where
  relatedItem : Option Identifier
  own : Option Identifier
  pcieDevice : Option Identifier
  sensor : Option SensorIdentifier

namespace CollectIdentifiers

/-- The entry for one property, and what is left for the next one. -/
def hand (identifiers : CollectIdentifiers) (value : QueryValue) :
    CollectedProperty × CollectIdentifiers :=
  let sensorLeft := identifiers.sensor.map fun _ => .empty
  match identifiers.relatedItem, identifiers.own with
  | some related, _ =>
    (⟨some related, value, identifiers.sensor⟩,
      { identifiers with relatedItem := some .empty, sensor := sensorLeft })
  | none, some own =>
    (⟨some own, value, identifiers.sensor⟩, { identifiers with sensor := sensorLeft })
  | none, none =>
    (⟨identifiers.pcieDevice, value, identifiers.sensor⟩,
      { identifiers with
        pcieDevice := identifiers.pcieDevice.map fun _ => .empty
        sensor := sensorLeft })

def handAll (identifiers : CollectIdentifiers) (value : QueryValue) :
    List Text -> List (Text × CollectedProperty) × CollectIdentifiers
  | [] => ([], identifiers)
  | key :: keys =>
    let (property, left) := identifiers.hand value
    let (properties, last) := left.handAll value keys
    ((key, property) :: properties, last)

end CollectIdentifiers

/-- `get_collected_property`: the loop over properties, with the set of those
that were collected before. -/
def getCollectedProperty (fields : QueryResultData) (seen : List Text)
    (identifiers : CollectIdentifiers) :
    List RedfishProperty -> List (Text × CollectedProperty) × List Text × CollectIdentifiers
  | [] => ([], seen, identifiers)
  | prop :: rest =>
    if prop.collectAs.isEmpty || seen.contains prop.property then
      getCollectedProperty fields seen identifiers rest
    else
      let propName := if prop.name.isEmpty then prop.property else prop.name
      match fields.lookup propName with
      | none => getCollectedProperty fields (prop.property :: seen) identifiers rest
      | some value =>
        let (handed, left) := identifiers.handAll value prop.collectAs
        let (others, last) := getCollectedProperty fields (prop.property :: seen) left rest
        (handed ++ others, last)

section

variable (planner : QueryPlanner World Object Iterable)

/-- `ApplyCollectAs`, as the list of the properties it adds. -/
def applyCollectAs (subquery : Subquery) (fields : QueryResultData)
    (interface : Option (RedfishInterface World Object Iterable)) (object : Object)
    (urlAnnotationEnabled : Bool) : StateM World (List (Text × CollectedProperty)) :=
  if subquery.properties.all (fun prop => prop.collectAs.isEmpty) &&
      subquery.normalizedProperties.isEmpty then
    return []
  else do
    let sensor <- createSensorIdentifier planner object
    let relatedItem <- match sensor with
      | some _ => getRelatedItemIdentifier planner interface object urlAnnotationEnabled
      | none => pure none
    let pcieDevice <- getPcieDeviceIdentifier planner interface object urlAnnotationEnabled
    let own := (fields.lookup kIdentifierTag).bind QueryValue.identifier?
    let (first, seen, left) :=
      getCollectedProperty fields [] ⟨relatedItem, own, pcieDevice, sensor⟩ subquery.properties
    let (second, _, _) := getCollectedProperty fields seen left subquery.normalizedProperties
    return first ++ second

end

def addCollected (collected : List (Text × List CollectedProperty))
    (entry : Text × CollectedProperty) : List (Text × List CollectedProperty) :=
  match collected with
  | [] => [(entry.1, [entry.2])]
  | (key, properties) :: rest =>
    if key = entry.1 then (key, properties ++ [entry.2]) :: rest
    else (key, properties) :: addCollected rest entry

section

variable (planner : QueryPlanner World Object Iterable)

/-- The raw data of a response in the form the subquery asks for. -/
def rawQueryValue (type : RawDataType) (raw : Text) : QueryValue :=
  match type with
  | .bytes => .rawBytes raw
  | .string => .rawString (base64Escape raw)
  | .none => .notSet

/-- The raw value of a response, if the subquery fetches raw data and there is
some. -/
def rawValueFor (subquery : Subquery) (response : RedfishResponse Object Iterable) :
    Option QueryValue :=
  match subquery.fetchRawData, response.redfishRawBytes with
  | some type, some raw => some (rawQueryValue type raw)
  | _, _ => none

/-- What the normalisation of one resource yields: the value of the subquery and
the properties to collect. -/
abbrev BuiltValue := QueryValue × List (Text × CollectedProperty)

/-- The value of a subquery at an object; none without properties, unless it has to carry other
results. -/
def buildObjectValue (subquery : Subquery) (subqueryId : Text)
    (interface : Option (RedfishInterface World Object Iterable)) (object : Object)
    (urlAnnotationEnabled : Bool) : StateM World (StatusOr (Option BuiltValue)) := do
  let normalized <- planner.normalizer object subquery urlAnnotationEnabled
  match normalized with
  | .ok fields => do
      let collected <- applyCollectAs planner subquery fields interface object urlAnnotationEnabled
      return .ok (some (.subquery fields, collected))
  | .error status =>
    if status.code ≠ .notFound then return .error status
    else if !subquery.properties.isEmpty || !isRootSubquery planner.query subqueryId then
      return .ok none
    else do
      let collected <- applyCollectAs planner subquery [] interface object urlAnnotationEnabled
      return .ok (some (.subquery [], collected))

/-- The first half of `TryNormalize`. -/
def buildQueryValue (subquery : Subquery) (subqueryId : Text)
    (interface : Option (RedfishInterface World Object Iterable))
    (context : QueryExecutionContext Object Iterable) (urlAnnotationEnabled : Bool) :
    StateM World (StatusOr (Option BuiltValue)) :=
  match rawValueFor subquery context.redfishResponse with
  | some value => return .ok (some (value, []))
  | none =>
    match context.redfishResponse.redfishObject with
    | none => return .error (.internal (text "Redfish object is null in query execution context: " ++
        context.lastRedpathPrefix))
    | some object =>
      buildObjectValue planner subquery subqueryId interface object urlAnnotationEnabled

end

/-- Append a value to the list under a key, which is created if needed. -/
def addToList (name : Text) (value : QueryValue) (fields : QueryResultData) :
    QueryResultData × Location :=
  let values := ((fields.lookup name).map QueryValue.mutableList).getD []
  (setField name (.list (values ++ [value])) fields, [.field name, .element values.length])

/-- Add a value to the result of a root subquery.  The first raw value is stored
without a list. -/
def addToRootResult (name : Text) (value : QueryValue) (fields : QueryResultData) :
    QueryResultData × Location :=
  if (fields.lookup name).isNone && value.hasRawData then
    (setField name value fields, [.field name])
  else addToList name value fields

/-- The result of a root subquery that the context knows: the first one in the
order of the root ids. -/
def findRootResult (query : DelliciusQuery) (subqueryId : Text)
    (results : List (Text × Location)) : Option Location :=
  ((findRootIds query subqueryId).getD []).findSome? fun rootId => results.lookup rootId

/-- The second half of `TryNormalize`: store a value, and say where. -/
def storeQueryValue (query : DelliciusQuery) (subqueryId : Text) (value : QueryValue)
    (results : List (Text × Location)) (data : QueryResultData) : QueryResultData × Location :=
  match findRootResult query subqueryId results with
  | none => addToList subqueryId value data
  | some root =>
    let whole := QueryValue.subquery data
    let (fields, place) := addToRootResult subqueryId value
      (((whole.at? root).map QueryValue.mutableSubquery).getD [])
    ((whole.modify (fun _ => .subquery fields) root).mutableSubquery, root ++ place)

variable (planner : QueryPlanner World Object Iterable)

def tryNormalize (subqueryId : Text) (interface : Option (RedfishInterface World Object Iterable))
    (context : QueryExecutionContext Object Iterable) (urlAnnotationEnabled : Bool)
    (result : QueryResult) :
    StateM World (Status × QueryResult × QueryExecutionContext Object Iterable) :=
  match findSubquery planner.query subqueryId with
  | none => return (.notFound (text "Subquery for subquery id " ++ subqueryId ++
      text " not found in query execution context."), result, context)
  | some subquery => do
      let built <- buildQueryValue planner subquery subqueryId interface context
        urlAnnotationEnabled
      match built with
      | .error status => return (status, result, context)
      | .ok none => return (.okStatus, result, context)
      | .ok (some (value, collected)) =>
        let (data, location) := storeQueryValue planner.query subqueryId value
          context.subqueryIdToSubqueryResult result.data
        return (.okStatus,
          { result with
            data := data
            collectedProperties := collected.foldl addCollected result.collectedProperties },
          { context with
            subqueryIdToSubqueryResult :=
              (subqueryId, location) :: context.subqueryIdToSubqueryResult })

/-- The loop of `TryNormalizeOnFinalQueryResult`. -/
def tryNormalizeOnFinalQueryResult (urlAnnotationEnabled : Bool) :
    List (DelliciusQuery -> QueryResult -> Bool -> StateM World (Status × QueryResult)) ->
      QueryResult -> StateM World QueryResult
  | [], result => return result
  | normalizer :: rest, result => do
      let (status, normalized) <- normalizer planner.query result urlAnnotationEnabled
      if status.isOk then tryNormalizeOnFinalQueryResult urlAnnotationEnabled rest normalized
      else
        return normalized.addError
          (text "Unable to normalize with additional normalizers: " ++ status.message) .internal

end Ecclesia.Planner
