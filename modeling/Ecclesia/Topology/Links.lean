import Ecclesia.Topology.Assemblies

namespace Ecclesia.Topology

/-!
# The links between the nodes

Both directions of a link are entered together, so that the two maps stay inverse to each
other.  The ends of a link are a node that was made for a component and a node that has been
found under an odata id.
-/

/-- What the links between the nodes are made from, and what they keep. -/
structure Linked (addresses : List NodePtr) (topology : NodeTopology) : Prop where
  withParents : ∀ node ∈ topology.nodeToParents.keys, node ∈ addresses
  parents : ∀ node parent, parent ∈ topology.nodeToParents.listAt node -> parent ∈ addresses
  withChildren : ∀ node ∈ topology.nodeToChildren.keys, node ∈ addresses
  children : ∀ node child, child ∈ topology.nodeToChildren.listAt node -> child ∈ addresses
  inverse : topology.Inverse

variable {addresses : List NodePtr} {odataIdToNode : HashMap Text NodePtr}

lemma attachTo_linked {node : NodePtr} {topology : NodeTopology}
    (linked : Linked addresses topology) (isNode : node ∈ addresses)
    (known : ∀ odataId other, odataIdToNode.lookup odataId = some other -> other ∈ addresses)
    (odataId : Text) : Linked addresses (attachTo odataIdToNode node topology odataId) := by
  unfold attachTo
  cases found : odataIdToNode.lookup odataId with
  | none => exact linked
  | some parent =>
    have isParent := known odataId parent found
    constructor
    · intro other member
      rcases (HashMap.mem_keys_pushBack _ _ _ _).mp member with rfl | before
      · exact isNode
      · exact linked.withParents other before
    · intro other above member
      rcases mem_listAt_pushBack member with rfl | before
      · exact isParent
      · exact linked.parents other above before
    · intro other member
      rcases (HashMap.mem_keys_pushBack _ _ _ _).mp member with rfl | before
      · exact isParent
      · exact linked.withChildren other before
    · intro other below member
      rcases mem_listAt_pushBack member with rfl | before
      · exact isNode
      · exact linked.children other below before
    · intro above below
      simp only [count_listAt_pushBack, linked.inverse above below, eq_comm, and_comm]

lemma listAt_insert_nil (map : HashMap NodePtr (List NodePtr)) (key other : NodePtr) :
    (map.insert key []).listAt other = map.listAt other := by
  unfold HashMap.listAt
  rw [HashMap.lookup_insert]
  by_cases same : other = key
  · subst same
    cases map.lookup other with
    | none => simp
    | some elements => simp
  · simp [same]

lemma mem_keys_insert {map : HashMap NodePtr (List NodePtr)} {key other : NodePtr}
    {value : List NodePtr} (member : other ∈ (map.insert key value).keys) :
    other = key ∨ other ∈ map.keys := by
  unfold HashMap.insert at member
  split at member
  · exact .inr member
  · exact (HashMap.mem_keys_assign _ _ _ _).mp member

lemma attachNode_linked {topology : NodeTopology} (linked : Linked addresses topology)
    (known : ∀ odataId other, odataIdToNode.lookup odataId = some other -> other ∈ addresses)
    {entry : NodePtr × List Text} (isNode : entry.1 ∈ addresses) :
    Linked addresses (attachNode odataIdToNode topology entry) := by
  have started : Linked addresses
      { topology with nodeToParents := topology.nodeToParents.insert entry.1 [] } := by
    refine ⟨?_, ?_, linked.withChildren, linked.children, ?_⟩
    · intro other member
      rcases mem_keys_insert member with rfl | before
      · exact isNode
      · exact linked.withParents other before
    · intro other above member
      rw [listAt_insert_nil] at member
      exact linked.parents other above member
    · intro above below
      rw [listAt_insert_nil]
      exact linked.inverse above below
  unfold attachNode
  generalize NodeTopology.mk _ _ _ _ _ = state at started ⊢
  induction entry.2 generalizing state with
  | nil => exact started
  | cons odataId rest ih => exact ih _ (attachTo_linked started isNode known odataId)

lemma attachNode_frame (odataIdToNode : HashMap Text NodePtr) (topology : NodeTopology)
    (entry : NodePtr × List Text) :
    (attachNode odataIdToNode topology entry).nodes = topology.nodes ∧
      (attachNode odataIdToNode topology entry).devpathToNodeMap = topology.devpathToNodeMap ∧
      (attachNode odataIdToNode topology entry).uriToAssociatedNodeMap =
        topology.uriToAssociatedNodeMap := by
  unfold attachNode
  generalize started : NodeTopology.mk _ _ _ _ _ = state
  have same : state.nodes = topology.nodes ∧ state.devpathToNodeMap = topology.devpathToNodeMap ∧
      state.uriToAssociatedNodeMap = topology.uriToAssociatedNodeMap := by
    subst started
    exact ⟨rfl, rfl, rfl⟩
  clear started
  induction entry.2 generalizing state with
  | nil => exact same
  | cons odataId rest ih =>
    apply ih
    unfold attachTo
    cases odataIdToNode.lookup odataId with
    | none => exact same
    | some parent => exact same

lemma attachNodes_linked (order : IterationOrder (NodePtr × List Text)) {state : AssemblyState}
    (known : ∀ odataId other, state.odataIdToNode.lookup odataId = some other -> other ∈ addresses)
    (attached : ∀ node ∈ state.nodeToAttachedtoOdataIds.keys, node ∈ addresses)
    (started : Linked addresses state.nodeTopology) :
    Linked addresses (attachNodes order state) := by
  have areNodes : ∀ entry ∈ order.iterate state.nodeToAttachedtoOdataIds.entries,
      entry.1 ∈ addresses := fun entry member =>
    attached entry.1 (List.mem_map.mpr ⟨entry, order.mem_iterate.mp member, rfl⟩)
  unfold attachNodes
  generalize state.nodeTopology = topology at started ⊢
  generalize order.iterate state.nodeToAttachedtoOdataIds.entries = entries at areNodes ⊢
  induction entries generalizing topology with
  | nil => exact started
  | cons entry rest ih =>
    rw [List.forall_mem_cons] at areNodes
    exact ih _ (attachNode_linked started known areNodes.1) areNodes.2

lemma attachNodes_frame (order : IterationOrder (NodePtr × List Text)) (state : AssemblyState) :
    (attachNodes order state).nodes = state.nodeTopology.nodes ∧
      (attachNodes order state).devpathToNodeMap = state.nodeTopology.devpathToNodeMap ∧
      (attachNodes order state).uriToAssociatedNodeMap =
        state.nodeTopology.uriToAssociatedNodeMap := by
  unfold attachNodes
  generalize state.nodeTopology = topology
  induction order.iterate state.nodeToAttachedtoOdataIds.entries generalizing topology with
  | nil => exact ⟨rfl, rfl, rfl⟩
  | cons entry rest ih =>
    rcases attachNode_frame state.odataIdToNode topology entry with ⟨nodes, devpaths, uris⟩
    rcases ih (attachNode state.odataIdToNode topology entry) with
      ⟨sameNodes, sameDevpaths, sameUris⟩
    exact ⟨sameNodes.trans nodes, sameDevpaths.trans devpaths, sameUris.trans uris⟩

end Ecclesia.Topology
