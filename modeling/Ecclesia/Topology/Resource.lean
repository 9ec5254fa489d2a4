import Ecclesia.Redfish.IndexHelper
import Ecclesia.Topology.Node

namespace Ecclesia.Topology

open Absl

/-!
# Resources and their configuration

A finite graph of Redfish resources, and what the construction of a topology reads from a
resource: its type, its converted name and model, and its location.
-/

/-- A service whose resources have finitely many URIs. -/
structure RedfishGraph (Object Iterable : Type) extends RedfishTree Object Iterable where
  cachedGetUri : Text -> GetParams -> RedfishVariant Object Iterable
  boolValue : Object -> Text -> Option Bool
  uris : List Text
  complete : ∀ object uri, getUriString object = some uri -> uri ∈ uris

/-- `ResourceConfig::UsableLinks` -/
structure UsableLinks where
  singularLinks : List Text
  arrayLinks : List Text

/-- `ResourceConfig::FirstClassAttributes` -/
structure FirstClassAttributes where
  collectionAttributes : List Text
  arrayAttributes : List Text
  singularAttributes : List Text

structure ResourceConfig where
  usableLinks : UsableLinks
  usableLinksSkip : UsableLinks
  firstClassAttributes : FirstClassAttributes

def ResourceConfig.empty : ResourceConfig := ⟨⟨[], []⟩, ⟨[], []⟩, ⟨[], [], []⟩⟩

/-- `TopologyConfig::FindingRootNode` -/
structure FindingRootNode where
  chassisLink : Option Text
  googleServiceRoot : Bool

structure TopologyConfig where
  findRootNode : FindingRootNode
  resourceToConfig : HashMap Text ResourceConfig
  upstreamLinks : List Text

structure ResourceTypeAndVersion where
  resourceType : Text
  version : Text

/-- A type is three parts, of which the second starts with a letter for the version. -/
def getResourceTypeAndVersionFromOdataType (type : Text) : Option ResourceTypeAndVersion :=
  match strSplit '.' type with
  | [_, 'v' :: version, resourceType] => some ⟨resourceType, version⟩
  | _ => none

def getResourceConfigFromResourceTypeAndVersion
    (resourceTypeVersion : ResourceTypeAndVersion) (config : TopologyConfig) : ResourceConfig :=
  (config.resourceToConfig.lookup resourceTypeVersion.resourceType).getD .empty

variable {Object Iterable : Type} (graph : RedfishGraph Object Iterable)

variable (object : Object)

/-- `GetNodeValue<std::string>` -/
def nodeValue (property : String) : Option Text :=
  (graph.property object (text property)).stringValue

def objectAt (property : String) : Option Object :=
  (graph.property object (text property)).object

def getResourceTypeAndVersionForObject : Option ResourceTypeAndVersion :=
  (nodeValue graph object "@odata.type").bind getResourceTypeAndVersionFromOdataType

def asciiStrToLower (t : Text) : Text := t.map Char.toLower

/-- A memory module is called after its device type, if that is a kind of DDR. -/
def memoryDeviceName : Option Text :=
  match getResourceTypeAndVersionForObject graph object with
  | none => none
  | some typeAndVersion =>
    if typeAndVersion.resourceType = text "Memory" then
      match nodeValue graph object "MemoryDeviceType" with
      | none => none
      | some deviceType =>
        if deviceType.take 3 = text "DDR" then some (asciiStrToLower (deviceType.take 4))
        else none
    else none

def getConvertedResourceType (property : String) (object : Object) : Option Text :=
  match memoryDeviceName graph object with
  | some name => some name
  | none =>
    (nodeValue graph object property).map fun value =>
      asciiStrToLower (strReplaceAll (stripAsciiWhitespace value) [(text " ", text "_")])

def getConvertedResourceName : Option Text :=
  getConvertedResourceType graph "Name" object

def getConvertedResourceModel : Option Text :=
  getConvertedResourceType graph "Model" object

def getSupplementalLocationInfo : Option SupplementalLocationInfo :=
  match (objectAt graph object "Location").or (objectAt graph object "PhysicalLocation") with
  | none => none
  | some location =>
    match objectAt graph location "PartLocation" with
    | none => none
    | some partLocation =>
      match nodeValue graph partLocation "ServiceLabel",
        nodeValue graph location "PartLocationContext" with
      | none, none => none
      | serviceLabel, partLocationContext =>
        some ⟨serviceLabel.getD [], partLocationContext.getD []⟩

/-- The part location under the attribute for locations, which is another one for drives. -/
def partLocationOf : Option Object :=
  let place :=
    match objectAt graph object "Location" with
    | some _ => text "Location"
    | none => text "PhysicalLocation"
  (graph.indexName (graph.property object place) (text "PartLocation")).object

end Ecclesia.Topology
