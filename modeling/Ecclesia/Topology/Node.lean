import Ecclesia.Absl.Status
import Ecclesia.Library.Assoc

namespace Ecclesia.Topology

open List

/-!
# Node topologies

A topology owns its nodes and has four maps of pointers to them.  A pointer is an address;
addresses are given out in order and never twice.
-/

inductive NodeType where
  | board
  | connector
  | device
  | cable
deriving DecidableEq, Repr

structure SupplementalLocationInfo where
  serviceLabel : Text
  partLocationContext : Text
deriving DecidableEq, Repr

structure Node where
  name : Text
  model : Text
  localDevpath : Text
  type : NodeType
  associatedUris : List Text
  supplementalLocationInfo : Option SupplementalLocationInfo
  replaceable : Bool
deriving DecidableEq, Repr

abbrev NodePtr := Nat

/-- `NodeTopology`.  Each of the nodes that it owns stands with its address. -/
structure NodeTopology where
  nodes : List (NodePtr × Node)
  uriToAssociatedNodeMap : HashMap Text (List NodePtr)
  devpathToNodeMap : HashMap Text NodePtr
  nodeToParents : HashMap NodePtr (List NodePtr)
  nodeToChildren : HashMap NodePtr (List NodePtr)

namespace NodeTopology

def empty : NodeTopology := ⟨[], .empty, .empty, .empty, .empty⟩

def addresses (topology : NodeTopology) : List NodePtr := topology.nodes.map Prod.fst

/-- Every pointer in a map is to a node that the topology owns. -/
structure Owns (topology : NodeTopology) : Prop where
  devpaths : ∀ devpath node, topology.devpathToNodeMap.lookup devpath = some node ->
    node ∈ topology.addresses
  uris : ∀ uri node, node ∈ topology.uriToAssociatedNodeMap.listAt uri -> node ∈ topology.addresses
  withParents : ∀ node ∈ topology.nodeToParents.keys, node ∈ topology.addresses
  parents : ∀ node parent, parent ∈ topology.nodeToParents.listAt node ->
    parent ∈ topology.addresses
  withChildren : ∀ node ∈ topology.nodeToChildren.keys, node ∈ topology.addresses
  children : ∀ node child, child ∈ topology.nodeToChildren.listAt node -> child ∈ topology.addresses

/-- A node is as often a child of another one as that is a parent of it. -/
def Inverse (topology : NodeTopology) : Prop :=
  ∀ parent child, (topology.nodeToChildren.listAt parent).count child =
    (topology.nodeToParents.listAt child).count parent

end NodeTopology

def updateNode (address : NodePtr) (update : Node -> Node) (entries : List (NodePtr × Node)) :
    List (NodePtr × Node) :=
  entries.map fun entry => if entry.1 = address then (entry.1, update entry.2) else entry

lemma addresses_updateNode (address : NodePtr) (update : Node -> Node)
    (entries : List (NodePtr × Node)) :
    (updateNode address update entries).map Prod.fst = entries.map Prod.fst := by
  unfold updateNode
  rw [map_map]
  apply map_congr_left
  intro entry _
  by_cases same : entry.1 = address
  · simp [same]
  · simp [same]

lemma mem_listAt_pushBack {Key Element : Type} [BEq Key] [LawfulBEq Key]
    {map : HashMap Key (List Element)} {key other : Key} {element found : Element}
    (member : found ∈ (map.pushBack key element).listAt other) :
    found = element ∨ found ∈ map.listAt other := by
  rw [HashMap.listAt_pushBack] at member
  cases same : other == key with
  | true =>
    rw [same] at member
    rcases mem_append.mp member with before | isElement
    · rw [<- eq_of_beq same] at before
      exact .inr before
    · exact .inl (mem_singleton.mp isElement)
  | false =>
    rw [same] at member
    exact .inr member

lemma count_listAt_pushBack {Key : Type} [BEq Key] [LawfulBEq Key] [DecidableEq Key]
    (map : HashMap Key (List NodePtr)) (key other : Key) (element found : NodePtr) :
    ((map.pushBack key element).listAt other).count found =
      (map.listAt other).count found + if other = key ∧ element = found then 1 else 0 := by
  rw [HashMap.listAt_pushBack]
  by_cases same : other = key
  · subst same
    simp [count_singleton]
  · simp [same]

lemma lookup_assign_cases {Key Value : Type} [BEq Key] [LawfulBEq Key]
    {map : HashMap Key Value} {key other : Key} {value found : Value}
    (isFound : (map.assign key value).lookup other = some found) :
    found = value ∨ map.lookup other = some found := by
  rw [HashMap.lookup_assign] at isFound
  cases same : other == key with
  | true =>
    rw [same] at isFound
    exact .inl (Option.some.inj isFound).symm
  | false =>
    rw [same] at isFound
    exact .inr isFound

end Ecclesia.Topology
