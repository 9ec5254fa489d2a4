import Ecclesia.Library.Chain
import Ecclesia.Topology.Node

namespace Ecclesia.Topology

/-!
# The topology of assemblies

The nodes of an assembly are made and entered into the maps first, and handed over to the
topology at the end of the assembly's turn.  In between the program looks for the component
that is named like the assembly.  If there is none, it reads a pointer that has not been
set; what it finds there is a parameter.
-/

/-- A component of an assembly. -/
structure Component where
  odataId : Text
  name : Text
  model : Text
  type : NodeType
  localDevpath : Text
  upstreamConnectorSequence : Text
  associatedUris : List Text
deriving DecidableEq, Repr

structure Assembly where
  name : Text
  model : Text
  components : List Component
  upstreamOdataIds : List Text
deriving DecidableEq, Repr

/-- The variables of the loop over the assemblies. -/
structure AssemblyState where
  nodeTopology : NodeTopology
  odataIdToNode : HashMap Text NodePtr
  nodeToAttachedtoOdataIds : HashMap NodePtr (List Text)
  currentNodes : List (NodePtr × Node)
  nextAddress : NodePtr

def AssemblyState.start : AssemblyState := ⟨.empty, .empty, .empty, [], 0⟩

variable (order : IterationOrder (NodePtr × List Text))
  (uninitialised : AssemblyState -> Assembly -> Option NodePtr) (assembly : Assembly)

/-- The id of the first board, which stays empty if there is none. -/
def boardOdataId : Text :=
  match assembly.components.find? fun component => component.type = .board with
  | some component => component.odataId
  | none => []

variable (state : AssemblyState) (component : Component)

def nodeOfComponent : Node where
  name := component.name
  model := component.model
  localDevpath := component.localDevpath
  type := component.type
  associatedUris := component.associatedUris
  supplementalLocationInfo := none
  replaceable := false

/-- What a component is attached to: a board to what its assembly is, and everything else to
the board. -/
def attachedTo : List Text :=
  if component.type = .board then assembly.upstreamOdataIds
  else if (boardOdataId assembly).isEmpty then [] else [boardOdataId assembly]

/-- One turn of the loop over the components. -/
def createNode : AssemblyState :=
  let node := state.nextAddress
  { nodeTopology :=
      { state.nodeTopology with
        devpathToNodeMap := state.nodeTopology.devpathToNodeMap.assign component.localDevpath node
        uriToAssociatedNodeMap := component.associatedUris.foldl
          (fun map uri => map.pushBack uri node) state.nodeTopology.uriToAssociatedNodeMap }
    odataIdToNode := state.odataIdToNode.assign component.odataId node
    nodeToAttachedtoOdataIds :=
      state.nodeToAttachedtoOdataIds.assign node (attachedTo assembly component)
    currentNodes := state.currentNodes ++ [(node, nodeOfComponent component)]
    nextAddress := node + 1 }

/-- `assembly_primary_node`, which keeps the value that it had if no name is that of the
assembly. -/
def assemblyPrimaryNode (currentNodes : List (NodePtr × Node)) (uninitialised : Option NodePtr)
    : Option NodePtr :=
  match (currentNodes.filter fun entry => entry.2.name = assembly.name).getLast? with
  | some entry => some entry.1
  | none => uninitialised

/-- The rest of an assembly's turn, undefined with a pointer to no node. -/
def finishAssembly (uninitialised : Option NodePtr) (state : AssemblyState) :
    Option AssemblyState :=
  match assemblyPrimaryNode assembly state.currentNodes uninitialised with
  | none => some { state with currentNodes := [] }
  | some primary =>
    let nodes := state.nodeTopology.nodes ++ state.currentNodes
    match nodes.lookup primary with
    | none => none
    | some node =>
      let isCable := node.type = .board && state.currentNodes.length = 2 &&
        state.currentNodes.any fun entry => entry.2.name = text "DOWNLINK"
      some
        { state with
          nodeTopology :=
            { state.nodeTopology with
              nodes :=
                if isCable then updateNode primary (fun node => { node with type := .cable }) nodes
                else nodes }
          currentNodes := [] }

/-- One turn of the loop over the assemblies. -/
def processAssembly (assembly : Assembly) : Option AssemblyState :=
  if assembly.components.isEmpty then some state
  else
    let created := assembly.components.foldl (createNode assembly) state
    finishAssembly assembly (uninitialised created assembly) created

def attachTo (odataIdToNode : HashMap Text NodePtr) (node : NodePtr) (topology : NodeTopology)
    (odataId : Text) : NodeTopology :=
  match odataIdToNode.lookup odataId with
  | none => topology
  | some attachedToNode =>
    { topology with
      nodeToParents := topology.nodeToParents.pushBack node attachedToNode
      nodeToChildren := topology.nodeToChildren.pushBack attachedToNode node }

def attachNode (odataIdToNode : HashMap Text NodePtr) (topology : NodeTopology)
    (entry : NodePtr × List Text) : NodeTopology :=
  entry.2.foldl (attachTo odataIdToNode entry.1)
    { topology with nodeToParents := topology.nodeToParents.insert entry.1 [] }

/-- The loop over the nodes, in the order of their map. -/
def attachNodes : NodeTopology :=
  (order.iterate state.nodeToAttachedtoOdataIds.entries).foldl (attachNode state.odataIdToNode)
    state.nodeTopology

def createNodeTopologyFromAssemblies (assemblies : List Assembly) :
    Option NodeTopology := do
  let state <- assemblies.foldlM (processAssembly uninitialised) .start
  return attachNodes order state

end Ecclesia.Topology
