import Ecclesia.Library.Assoc
import Ecclesia.Redfish.IndexHelper

namespace Ecclesia.Sysmodel

/-!
# Queries for all resources of a type

Every type of resource is found by one or two index chains from a service root.  The types
with two chains differ in what they make of a callback that says stop in the first chain,
and drives are passed to the callback once for each URI.
-/

structure QueryParams where
  expandLevels : Nat
  freshness : Freshness

/-- The resource types that the query is overloaded on. -/
inductive ResourceType where
  | chassis
  | system
  | memory
  | storage
  | drive
  | legacyStorageController
  | storageController
  | processor
  | physicalLpu
  | ethernetInterface
  | thermal
  | temperature
  | voltage
  | fan
  | sensor
  | sensorCollection
  | pcieFunction
  | computerSystem
  | manager
  | logService
  | logEntry
  | softwareInventory
  | rootOfTrust
  | componentIntegrity
  | pcieSlots
  | switch
deriving DecidableEq

def get (property : String) (args : GetParams) : IndexType := .getWithArgs (text property) args

def name (property : String) : IndexType := .name (text property)

def expandTo (levels : Nat) : Option RedfishQueryParamExpand := some ⟨.notLinks, levels⟩

/-- A collection that is read with one level, whatever the query asks for. -/
def getExpanded (property : String) : IndexType := get property { expand := expandTo 1 }

/-- A collection that is read with one level and the freshness of the query. -/
def getFresh (property : String) (queryParams : QueryParams) : IndexType :=
  get property { freshness := queryParams.freshness, expand := expandTo 1 }

/-- A collection that is read without levels and with the freshness of the query. -/
def getUnexpanded (property : String) (queryParams : QueryParams) : IndexType :=
  get property
    { freshness := queryParams.freshness, autoAdjustLevels := false, expand := expandTo 0 }

/-- A collection that is read with the levels of the query, adjusted to the chain. -/
def getAdjusted (property : String) (queryParams : QueryParams) : IndexType :=
  get property
    { freshness := queryParams.freshness
      autoAdjustLevels := true
      expand := expandTo queryParams.expandLevels }

def firstChain (queryParams : QueryParams) : ResourceType -> List IndexType
  | .chassis =>
    [get "Chassis" { freshness := queryParams.freshness, expand := expandTo 0 }, .each]
  | .system => [getFresh "Systems" queryParams, .each]
  | .memory =>
    [getExpanded "Systems", .each,
      get "Memory"
        { freshness := queryParams.freshness, expand := expandTo queryParams.expandLevels },
      .each]
  | .storage => [getExpanded "Systems", .each, getUnexpanded "Storage" queryParams, .each]
  | .drive =>
    [getExpanded "Systems", .each, getUnexpanded "Storage" queryParams, .each, name "Drives", .each]
  | .legacyStorageController =>
    [getExpanded "Systems", .each, getUnexpanded "Storage" queryParams, .each,
      name "StorageControllers", .each]
  | .storageController =>
    [getExpanded "Systems", .each, getUnexpanded "Storage" queryParams, .each,
      name "Controllers", .each]
  | .processor => [getExpanded "Systems", .each, getAdjusted "Processors" queryParams, .each]
  | .physicalLpu =>
    [getExpanded "Systems", .each, getAdjusted "Processors" queryParams, .each,
      name "SubProcessors", .each, name "SubProcessors", .each]
  | .ethernetInterface =>
    [getFresh "Systems" queryParams, .each, name "EthernetInterfaces", .each]
  | .thermal => [getFresh "Chassis" queryParams, .each, name "Thermal"]
  | .temperature =>
    [getFresh "Chassis" queryParams, .each, name "Thermal", name "Temperatures", .each]
  | .voltage => [getFresh "Chassis" queryParams, .each, name "Power", name "Voltages", .each]
  | .fan =>
    [getFresh "Chassis" queryParams, .each,
      get "Thermal" { freshness := queryParams.freshness }, name "Fans", .each]
  | .sensor => [getExpanded "Chassis", .each, getFresh "Sensors" queryParams, .each]
  | .sensorCollection => [getExpanded "Chassis", .each, getFresh "Sensors" queryParams]
  | .pcieFunction =>
    [getExpanded "Systems", .each, getAdjusted "PCIeDevices" queryParams, .each, name "Links",
      name "PCIeFunctions", .each]
  | .computerSystem => [getFresh "Systems" queryParams, .each]
  | .manager => [name "Managers", .each]
  | .logService => [getFresh "Systems" queryParams, .each, name "LogServices", .each]
  | .logEntry =>
    [getFresh "Chassis" queryParams, .each, name "LogServices", .each, name "Entries", .each]
  | .softwareInventory => [name "UpdateService", name "FirmwareInventory", .each]
  | .rootOfTrust => [name "RootOfTrustCollection", .each]
  | .componentIntegrity => [name "ComponentIntegrity", .each]
  | .pcieSlots => [getFresh "Chassis" queryParams, .each, name "PCIeSlots"]
  | .switch => [getFresh "Fabrics" queryParams, .each, name "Switches", .each]

def secondChain (queryParams : QueryParams) : ResourceType -> Option (List IndexType)
  | .drive =>
    some [getExpanded "Chassis", .each, getUnexpanded "Drives" queryParams, .each]
  | .storageController =>
    some [getUnexpanded "Storage" queryParams, .each, name "Controllers", .each]
  | .ethernetInterface => some [get "Managers" {}, .each, name "EthernetInterfaces", .each]
  | .logService =>
    some [getFresh "Managers" queryParams, .each, name "LogServices", .each]
  | .softwareInventory => some [name "UpdateService", name "SoftwareInventory", .each]
  | _ => none

def serviceRoot : ResourceType -> ServiceRootUri
  | .rootOfTrust => .google
  | _ => .redfish

variable {Object Iterable State : Type}

variable (tree : RedfishTree Object Iterable)

/-- Two chains, one after the other. -/
def queryBoth (root : RedfishVariant Object Iterable) (first second : List IndexType)
    (resultCallback : Object -> State -> RedfishIterReturnValue × State) (state : State) : State :=
  (tree.indexHelperDo resultCallback second root
    (tree.indexHelperDo resultCallback first root state).2).2

/-- Two chains, where a local variable keeps the last answer of the callback in the first one. -/
def queryBothUntilStop (root : RedfishVariant Object Iterable) (first second : List IndexType)
    (resultCallback : Object -> State -> RedfishIterReturnValue × State) (state : State) : State :=
  let remembering := fun object (returnVal : RedfishIterReturnValue × State) =>
    match resultCallback object returnVal.2 with
    | (answer, after) => (answer, (answer, after))
  match (tree.indexHelperDo remembering first root (.proceed, state)).2 with
  | (.stop, after) => after
  | (.proceed, after) => (tree.indexHelperDo resultCallback second root after).2

variable (resultCallback : Object -> State -> RedfishIterReturnValue × State)

def callbackOncePerUri (object : Object) (state : HashSet Text × State)
    : RedfishIterReturnValue × (HashSet Text × State) :=
  match tree.getUriString object with
  | some uri =>
    if uri ∈ state.1.elements then (.proceed, state)
    else
      match resultCallback object state.2 with
      | (answer, after) => (answer, (state.1.insert uri, after))
  | none =>
    match resultCallback object state.2 with
    | (answer, after) => (answer, (state.1, after))

def queryAllResourceInternal (queryParams : QueryParams) (resource : ResourceType) (state : State)
    : State :=
  let root := tree.getRoot {} (serviceRoot resource)
  let first := firstChain queryParams resource
  match resource, secondChain queryParams resource with
  | .drive, some second =>
    (queryBoth tree root first second (callbackOncePerUri tree resultCallback)
      (⟨[], List.nodup_nil⟩, state)).2
  | .logService, some second | .softwareInventory, some second =>
    queryBothUntilStop tree root first second resultCallback state
  | _, some second => queryBoth tree root first second resultCallback state
  | _, none => (tree.indexHelperDo resultCallback first root state).2

end Ecclesia.Sysmodel
