import Ecclesia.Topology.Upstream

namespace Ecclesia.Topology

/-!
# The construction of a topology

The topology grows from the root chassis.  A queue holds the resources that are still to be
attached, each with the node that it has been found at.  A resource is queued only when its
URI has not been visited before, and visited from then on.

The resources that the queue holds are never null in this model, as in the program.
-/

structure AttachingNodes (Object : Type) where
  parent : Option NodePtr
  obj : Object

/-- The variables of the loop over the queue. -/
structure Building (Object : Type) where
  topology : NodeTopology
  queue : List (AttachingNodes Object)
  visitedUris : HashSet Text

namespace NodeTopology

/-- The local devpath of the node at an address. -/
def devpathAt (topology : NodeTopology) (node : NodePtr) : Text :=
  ((topology.nodes.lookup node).map Node.localDevpath).getD []

/-- Hand over a new node and enter it under its devpath and the URI that it is made for. -/
def addNode (topology : NodeTopology) (currentUri : Text) (node : Node) : NodeTopology :=
  let current := topology.nodes.length
  { topology with
    nodes := topology.nodes ++ [(current, node)]
    uriToAssociatedNodeMap := topology.uriToAssociatedNodeMap.pushBack currentUri current
    devpathToNodeMap := topology.devpathToNodeMap.assign node.localDevpath current }

/-- Hand over a new node under a parent. -/
def addChild (topology : NodeTopology) (parent : NodePtr) (currentUri : Text) (node : Node) :
    NodeTopology :=
  let current := topology.nodes.length
  { topology.addNode currentUri node with
    nodeToChildren := topology.nodeToChildren.pushBack parent current
    nodeToParents := topology.nodeToParents.pushBack current parent }

def associate (topology : NodeTopology) (node : NodePtr) (currentUri : Text) : NodeTopology :=
  { topology with
    nodes := updateNode node
      (fun node => { node with associatedUris := node.associatedUris ++ [currentUri] })
      topology.nodes
    uriToAssociatedNodeMap := topology.uriToAssociatedNodeMap.pushBack currentUri node }

end NodeTopology

variable {Object Iterable : Type} (graph : RedfishGraph Object Iterable)

def kRootDevpath : Text := text "/phys"

/-- The node without a parent. -/
def rootNode (object : Object) (currentUri : Text) : Node :=
  let name := (getConvertedResourceName graph object).getD (text "root")
  { name := name
    model := (getConvertedResourceModel graph object).getD name
    localDevpath := kRootDevpath
    type := .board
    associatedUris := [currentUri]
    supplementalLocationInfo := getSupplementalLocationInfo graph object
    replaceable := true }

def isAbsent (object : Object) : Bool :=
  match objectAt graph object "Status" with
  | none => false
  | some status => (nodeValue graph status "State").getD [] = text "Absent"

def pluggedLocationTypes : List Text :=
  [text "Slot", text "Connector", text "Bay", text "Backplane", text "Socket"]

/-- A plug-in can be replaced unless it says otherwise. -/
def isReplaceable (object : Object) : Bool :=
  match graph.boolValue object (text "Replaceable") with
  | some replaceable => replaceable
  | none =>
    match (graph.indexName (graph.property object (text "Oem")) (text "Google")).object with
    | none => true
    | some oemGoogle => (graph.boolValue oemGoogle (text "Replaceable")).getD true

def isCable (object : Object) : Bool :=
  (getResourceTypeAndVersionForObject graph object).any fun typeAndVersion =>
    typeAndVersion.resourceType = text "Cable"

/-- The node for a resource with a part location.  Some of these resources are left out. -/
def childNode (object nodeLocation : Object) (currentUri parentDevpath : Text) : Option Node :=
  if isAbsent graph object then none
  else
    match nodeValue graph nodeLocation "LocationType", getConvertedResourceName graph object with
    | none, _ => none
    | _, none => none
    | some locationType, some name =>
      let node (devpath : Text) (type : NodeType) (replaceable : Bool) : Node :=
        { name := name
          model := (getConvertedResourceModel graph object).getD name
          localDevpath := parentDevpath ++ devpath
          type := if isCable graph object then .cable else type
          associatedUris := [currentUri]
          supplementalLocationInfo := getSupplementalLocationInfo graph object
          replaceable := replaceable }
      if locationType = text "Embedded" then some (node (text ":device:" ++ name) .device false)
      else if locationType ∈ pluggedLocationTypes then
        (nodeValue graph nodeLocation "ServiceLabel").map fun label =>
          node (text "/" ++ label) .board (isReplaceable graph object)
      else none

/-- Queue a resource under a URI that has not been visited. -/
def pushUnlessVisited (parent : NodePtr) (uri : Text) (obj : Object)
    (state : List (AttachingNodes Object) × HashSet Text) :
    List (AttachingNodes Object) × HashSet Text :=
  if uri ∈ state.2.elements then state
  else (state.1 ++ [⟨some parent, obj⟩], state.2.insert uri)

/-- Queue the downstream resources. -/
def pushDownstreams (parent : NodePtr) (downstreamObjs : List Object)
    (state : List (AttachingNodes Object) × HashSet Text) :
    List (AttachingNodes Object) × HashSet Text :=
  downstreamObjs.foldl (fun state obj =>
      match graph.getUriString obj with
      | none => state
      | some uri => pushUnlessVisited parent uri obj state)
    state

/-- Queue the downstream cables. -/
def pushCables (parent : NodePtr) (cableUris : List Text)
    (state : List (AttachingNodes Object) × HashSet Text) :
    List (AttachingNodes Object) × HashSet Text :=
  cableUris.foldl (fun state cableUri =>
      match (graph.cachedGetUri cableUri {}).object with
      | none => state
      | some cableObj =>
        if cableUri = [] then state else pushUnlessVisited parent cableUri cableObj state)
    state

def googleServiceRoot (config : TopologyConfig) : Option Object :=
  if config.findRootNode.googleServiceRoot then (graph.getRoot {} .google).object else none

/-- What a turn does before it looks for downstream resources: the node, the topology, and what is
queued first. -/
def attach (config : TopologyConfig) (topology : NodeTopology) (currentUri : Text)
    (toAttach : AttachingNodes Object) :
    Option (NodePtr × NodeTopology × List (AttachingNodes Object)) :=
  match toAttach.parent with
  | none =>
    let current := topology.nodes.length
    some (current, topology.addNode currentUri (rootNode graph toAttach.obj currentUri),
      (googleServiceRoot graph config).toList.map fun newRoot => ⟨some current, newRoot⟩)
  | some parent =>
    match partLocationOf graph toAttach.obj with
    | none => some (parent, topology.associate parent currentUri, [])
    | some nodeLocation =>
      match childNode graph toAttach.obj nodeLocation currentUri (topology.devpathAt parent) with
      | none => none
      | some node =>
        some (topology.nodes.length, topology.addChild parent currentUri node, [])

/-- One turn of the loop over the queue, with a bound on the depth of the search for
downstream resources. -/
def turn (config : TopologyConfig) (cableMap : HashMap Text (List Text)) (bound : Nat)
    (toAttach : AttachingNodes Object) (state : Building Object) : Option (Building Object) :=
  match graph.getUriString toAttach.obj with
  | none => some state
  | some currentUri =>
    match attach graph config state.topology currentUri toAttach with
    | none => some state
    | some (current, topology, first) =>
      match findAllDownstreamsUris graph config bound toAttach.obj state.visitedUris with
      | none => none
      | some (downstreamObjs, visitedUris) =>
        let queued := pushCables graph current (cableMap.listAt currentUri)
          (pushDownstreams graph current downstreamObjs (state.queue ++ first, visitedUris))
        some ⟨topology, queued.1, queued.2⟩

/-- The loop over the queue, with a bound on the number of its turns. -/
def attachQueued (config : TopologyConfig) (cableMap : HashMap Text (List Text)) (bound : Nat) :
    Nat -> Building Object -> Option NodeTopology
  | 0, _ => none
  | turns + 1, state =>
    match state.queue with
    | [] => some state.topology
    | toAttach :: rest =>
      (turn graph config cableMap bound toAttach { state with queue := rest }).bind
        (attachQueued config cableMap bound turns)

def startBuilding (root : Object) : Building Object := ⟨.empty, [⟨none, root⟩], .empty⟩

/-- `CreateTopologyFromRedfishV2`, with a bound on its loops and its recursion. -/
def createTopologyFromRedfishV2 (config : TopologyConfig) (bound : Nat) : Option NodeTopology :=
  match findRootNode graph config bound with
  | none => none
  | some (.error _) => some .empty
  | some (.ok root) =>
    attachQueued graph config (getUpstreamUriToAttachedCableMap graph config) bound bound
      (startBuilding root)

end Ecclesia.Topology
