import Ecclesia.Topology.Links

namespace Ecclesia.Topology

open List Option

/-!
# Who owns the nodes of assemblies

While an assembly has its turn, its nodes are with the new nodes; afterwards they belong to
the topology, if there is a component with the name of the assembly.  Then the value of the
unset pointer is never read.  Otherwise a null pointer drops the nodes that the maps point
to.
-/

variable {assemblies : List Assembly}

section

/-- A node that was made for a component.  Only its type can have changed. -/
structure StemsFrom (entry : NodePtr × Node) (component : Component) : Prop where
  name : entry.2.name = component.name
  model : entry.2.model = component.model
  localDevpath : entry.2.localDevpath = component.localDevpath
  associatedUris : entry.2.associatedUris = component.associatedUris
  type : entry.2.type = component.type ∨ entry.2.type = .cable

/-- The nodes that have been made and not been dropped. -/
def AssemblyState.allocated (state : AssemblyState) : List (NodePtr × Node) :=
  state.nodeTopology.nodes ++ state.currentNodes

/-- The maps point to nodes that are there, of which there is one for each component. -/
structure Tracks (components : List Component) (state : AssemblyState) : Prop where
  stems : List.Forall₂ StemsFrom state.allocated components
  fresh : ∀ node ∈ state.allocated.map Prod.fst, node < state.nextAddress
  distinct : (state.allocated.map Prod.fst).Nodup
  devpaths : ∀ devpath node,
    state.nodeTopology.devpathToNodeMap.lookup devpath = some node ->
      node ∈ state.allocated.map Prod.fst
  uris : ∀ uri node, node ∈ state.nodeTopology.uriToAssociatedNodeMap.listAt uri ->
    node ∈ state.allocated.map Prod.fst
  odataIds : ∀ odataId node, state.odataIdToNode.lookup odataId = some node ->
    node ∈ state.allocated.map Prod.fst
  attached : ∀ node ∈ state.nodeToAttachedtoOdataIds.keys, node ∈ state.allocated.map Prod.fst
  noParents : state.nodeTopology.nodeToParents = .empty
  noChildren : state.nodeTopology.nodeToChildren = .empty

lemma tracks_start : Tracks [] .start where
  stems := .nil
  fresh _ member := absurd member not_mem_nil
  distinct := nodup_nil
  devpaths _ _ found := absurd found.symm (some_ne_none _)
  uris _ _ member := absurd member not_mem_nil
  odataIds _ _ found := absurd found.symm (some_ne_none _)
  attached _ member := absurd member not_mem_nil
  noParents := rfl
  noChildren := rfl

lemma mem_listAt_pushBacks {uris : List Text} {node other : NodePtr} {uri : Text} :
    ∀ {map : HashMap Text (List NodePtr)},
      other ∈ (uris.foldl (fun map uri => map.pushBack uri node) map).listAt uri ->
      other = node ∨ other ∈ map.listAt uri := by
  induction uris with
  | nil => exact fun member => .inr member
  | cons first rest ih =>
    intro map member
    rcases ih member with same | before
    · exact .inl same
    · rw [HashMap.listAt_pushBack] at before
      cases isFirst : uri == first with
      | true =>
        rw [isFirst] at before
        rcases mem_append.mp before with inside | isNode
        · rw [<- eq_of_beq isFirst] at inside
          exact .inr inside
        · exact .inl (mem_singleton.mp isNode)
      | false =>
        rw [isFirst] at before
        exact .inr before

variable {components : List Component} {state : AssemblyState}

lemma createNode_tracks (tracks : Tracks components state) (assembly : Assembly)
    (component : Component) :
    Tracks (components ++ [component]) (createNode assembly state component) := by
  have allocated : (createNode assembly state component).allocated =
      state.allocated ++ [(state.nextAddress, nodeOfComponent component)] :=
    (append_assoc _ _ _).symm
  have addresses : ∀ node,
      node ∈ (createNode assembly state component).allocated.map Prod.fst ↔
        node ∈ state.allocated.map Prod.fst ∨ node = state.nextAddress := by
    intro node
    rw [allocated, map_append, mem_append, map_singleton, mem_singleton]
  constructor
  · rw [allocated]
    exact rel_append tracks.stems (.cons ⟨rfl, rfl, rfl, rfl, .inl rfl⟩ .nil)
  · intro node member
    rcases (addresses node).mp member with before | rfl
    · exact Nat.lt_succ_of_lt (tracks.fresh node before)
    · exact Nat.lt_succ_self _
  · rw [allocated, map_append, map_singleton, <- concat_eq_append]
    exact tracks.distinct.concat fun member => Nat.lt_irrefl _ (tracks.fresh _ member)
  · intro devpath node found
    rw [addresses]
    rcases lookup_assign_cases found with same | before
    · exact .inr same
    · exact .inl (tracks.devpaths devpath node before)
  · intro uri node member
    rw [addresses]
    rcases mem_listAt_pushBacks member with same | before
    · exact .inr same
    · exact .inl (tracks.uris uri node before)
  · intro odataId node found
    rw [addresses]
    rcases lookup_assign_cases found with same | before
    · exact .inr same
    · exact .inl (tracks.odataIds odataId node before)
  · intro node member
    rw [addresses]
    rcases (HashMap.mem_keys_assign _ _ _ _).mp member with same | before
    · exact .inr same
    · exact .inl (tracks.attached node before)
  · exact tracks.noParents
  · exact tracks.noChildren

section

variable (assembly : Assembly) (more : List Component)

lemma createNodes_tracks :
    ∀ {components : List Component} {state : AssemblyState}, Tracks components state ->
      Tracks (components ++ more) (more.foldl (createNode assembly) state) := by
  induction more with
  | nil =>
    intro components state tracks
    rw [append_nil]
    exact tracks
  | cons component rest ih =>
    intro components state tracks
    rw [append_cons]
    exact ih (createNode_tracks tracks assembly component)

lemma currentNodes_createNodes :
    ∀ state : AssemblyState,
      ((more.foldl (createNode assembly) state).currentNodes.map fun entry => entry.2.name) =
        (state.currentNodes.map fun entry => entry.2.name) ++ more.map Component.name := by
  induction more with
  | nil => simp
  | cons component rest ih =>
    intro state
    rw [foldl_cons, ih]
    simp [createNode, nodeOfComponent]

lemma nodes_createNodes :
    ∀ state : AssemblyState,
      (more.foldl (createNode assembly) state).nodeTopology.nodes = state.nodeTopology.nodes := by
  induction more with
  | nil => exact fun state => rfl
  | cons component rest ih => exact fun state => ih _

end

lemma stems_updateNode (address : NodePtr) {entries : List (NodePtr × Node)}
    (stems : Forall₂ StemsFrom entries components) :
    Forall₂ StemsFrom (updateNode address (fun node => { node with type := .cable }) entries)
      components := by
  unfold updateNode
  rw [forall₂_map_left_iff]
  apply stems.imp
  intro entry component stemsFrom
  by_cases same : entry.1 = address
  · rw [if_pos same]
    exact ⟨stemsFrom.name, stemsFrom.model, stemsFrom.localDevpath, stemsFrom.associatedUris,
      .inr rfl⟩
  · rw [if_neg same]
    exact stemsFrom

lemma Tracks.handOver {nodes : List (NodePtr × Node)} (tracks : Tracks components state)
    (stems : Forall₂ StemsFrom nodes components)
    (addresses : nodes.map Prod.fst = state.allocated.map Prod.fst) :
    Tracks components
      { state with
        nodeTopology := { state.nodeTopology with nodes := nodes }
        currentNodes := [] } := by
  have same : (AssemblyState.allocated
      { state with
        nodeTopology := { state.nodeTopology with nodes := nodes }
        currentNodes := [] }) = nodes := append_nil _
  constructor
  · rw [same]
    exact stems
  · rw [same, addresses]
    exact tracks.fresh
  · rw [same, addresses]
    exact tracks.distinct
  · rw [same, addresses]
    exact tracks.devpaths
  · rw [same, addresses]
    exact tracks.uris
  · rw [same, addresses]
    exact tracks.odataIds
  · rw [same, addresses]
    exact tracks.attached
  · exact tracks.noParents
  · exact tracks.noChildren

variable {assembly : Assembly}

lemma assemblyPrimaryNode_named {currentNodes : List (NodePtr × Node)} {entry : NodePtr × Node}
    (member : entry ∈ currentNodes) (named : entry.2.name = assembly.name) :
    ∃ primary ∈ currentNodes.map Prod.fst,
      ∀ uninitialised, assemblyPrimaryNode assembly currentNodes uninitialised = some primary := by
  unfold assemblyPrimaryNode
  cases last : (currentNodes.filter fun entry => entry.2.name = assembly.name).getLast? with
  | none =>
    rw [getLast?_eq_none_iff, filter_eq_nil_iff] at last
    exact absurd (by simpa using named) (last entry member)
  | some found =>
    have inside := (mem_filter.mp (mem_of_getLast? last)).1
    exact ⟨found.1, mem_map.mpr ⟨found, inside, rfl⟩, fun _ => rfl⟩

lemma finishAssembly_named (tracks : Tracks components state) {entry : NodePtr × Node}
    (member : entry ∈ state.currentNodes) (named : entry.2.name = assembly.name) :
    ∃ after,
      (∀ uninitialised, finishAssembly assembly uninitialised state = some after) ∧
        Tracks components after ∧ after.currentNodes = [] := by
  rcases assemblyPrimaryNode_named member named with ⟨primary, isCurrent, found⟩
  have there : primary ∈ (state.nodeTopology.nodes ++ state.currentNodes).map Prod.fst := by
    rw [map_append]
    exact mem_append_right _ isCurrent
  rcases isSome_iff_exists.mp (lookup_isSome_iff.mpr there) with ⟨node, isNode⟩
  unfold finishAssembly
  simp only [found, isNode]
  refine ⟨_, fun _ => rfl, ?_, rfl⟩
  apply tracks.handOver
  · split
    · exact stems_updateNode primary tracks.stems
    · exact tracks.stems
  · split
    · exact addresses_updateNode primary _ _
    · rfl

/-- The components that an assembly is known by. -/
def Assembly.HasNamesake (assembly : Assembly) : Prop :=
  assembly.components ≠ [] -> ∃ component ∈ assembly.components, component.name = assembly.name

lemma processAssembly_named (tracks : Tracks components state) (idle : state.currentNodes = [])
    (namesake : assembly.HasNamesake) :
    ∃ after,
      (∀ uninitialised, processAssembly uninitialised state assembly = some after) ∧
        Tracks (components ++ assembly.components) after ∧ after.currentNodes = [] := by
  unfold processAssembly
  cases some : assembly.components with
  | nil =>
    rw [append_nil]
    exact ⟨state, fun _ => rfl, tracks, idle⟩
  | cons first rest =>
    rcases namesake (by simp [some]) with ⟨component, isComponent, named⟩
    rw [some] at isComponent
    have names := currentNodes_createNodes assembly (first :: rest) state
    rw [idle] at names
    have isName : assembly.name ∈ ((first :: rest).foldl (createNode assembly) state).currentNodes.map
        fun entry => entry.2.name := by
      rw [names, <- named]
      exact mem_map.mpr ⟨component, isComponent, rfl⟩
    rcases mem_map.mp isName with ⟨entry, member, sameName⟩
    rcases finishAssembly_named (createNodes_tracks assembly (first :: rest) tracks) member
      sameName with ⟨after, finished, tracksAfter, idleAfter⟩
    exact ⟨after, fun uninitialised => finished _, tracksAfter, idleAfter⟩

lemma processAssemblies_named :
    ∀ {components : List Component} {state : AssemblyState}, Tracks components state ->
      state.currentNodes = [] ->
      (∀ assembly ∈ assemblies, assembly.HasNamesake) ->
      ∃ after,
        (∀ uninitialised, assemblies.foldlM (processAssembly uninitialised) state = some after) ∧
        Tracks (components ++ assemblies.flatMap Assembly.components) after ∧
        after.currentNodes = [] := by
  induction assemblies with
  | nil =>
    intro components state tracks idle _
    rw [flatMap_nil, append_nil]
    exact ⟨state, fun _ => rfl, tracks, idle⟩
  | cons assembly rest ih =>
    intro components state tracks idle namesakes
    rcases processAssembly_named tracks idle (namesakes assembly (.head _)) with
      ⟨between, processed, tracksBetween, idleBetween⟩
    rcases ih tracksBetween idleBetween fun other isOther =>
      namesakes other (.tail _ isOther) with
      ⟨after, processedRest, tracksAfter, idleAfter⟩
    refine ⟨after, ?_, ?_, idleAfter⟩
    · intro uninitialised
      rw [foldlM_cons, processed uninitialised]
      exact processedRest uninitialised
    · rw [flatMap_cons, <- append_assoc]
      exact tracksAfter

lemma processAssembly_null {after : AssemblyState} (idle : state.currentNodes = [])
    (processed : processAssembly (fun _ _ => none) state assembly = some after) :
    after.currentNodes = [] ∧
      after.nodeTopology.nodes.length <=
        state.nodeTopology.nodes.length + assembly.components.length ∧
      (¬ assembly.HasNamesake ->
        after.nodeTopology.nodes.length <
          state.nodeTopology.nodes.length + assembly.components.length) := by
  unfold processAssembly at processed
  cases some : assembly.components with
  | nil =>
    rw [some] at processed
    cases processed
    refine ⟨idle, le_rfl, ?_⟩
    intro nameless
    exact absurd (fun nonempty => absurd some nonempty) nameless
  | cons first rest =>
    rw [some] at processed
    have names := currentNodes_createNodes assembly (first :: rest) state
    have lengths := congrArg List.length names
    rw [idle, map_nil, nil_append, length_map, length_map] at lengths
    have nodes := nodes_createNodes assembly (first :: rest) state
    generalize (first :: rest).foldl (createNode assembly) state = created at *
    unfold finishAssembly at processed
    cases primary : assemblyPrimaryNode assembly created.currentNodes none with
    | none =>
      simp only [primary] at processed
      cases processed
      simp only [nodes]
      exact ⟨trivial, Nat.le_add_right _ _, fun _ => by simp⟩
    | some address =>
      have found : ∃ entry ∈ created.currentNodes, entry.2.name = assembly.name := by
        unfold assemblyPrimaryNode at primary
        cases last : (created.currentNodes.filter fun entry =>
            entry.2.name = assembly.name).getLast? with
        | none =>
          rw [last] at primary
          cases primary
        | some entry =>
          rcases mem_filter.mp (mem_of_getLast? last) with ⟨inside, named⟩
          exact ⟨entry, inside, by simpa using named⟩
      simp only [primary] at processed
      cases isNode : (created.nodeTopology.nodes ++ created.currentNodes).lookup address with
      | none =>
        simp only [isNode] at processed
        cases processed
      | some node =>
        simp only [isNode] at processed
        cases processed
        have sameLength : ∀ update : Node -> Node,
            (updateNode address update
              (created.nodeTopology.nodes ++ created.currentNodes)).length =
              (created.nodeTopology.nodes ++ created.currentNodes).length :=
          fun update => length_map _
        refine ⟨rfl, ?_, ?_⟩
        · split
          · rw [sameLength, length_append, nodes, lengths]
          · rw [length_append, nodes, lengths]
        · intro nameless
          exfalso
          apply nameless
          intro _
          rcases found with ⟨entry, inside, named⟩
          have isName : assembly.name ∈ (first :: rest).map Component.name := by
            rw [idle, map_nil, nil_append] at names
            rw [<- names, <- named]
            exact mem_map.mpr ⟨entry, inside, rfl⟩
          rcases mem_map.mp isName with ⟨component, isComponent, sameName⟩
          rw [some]
          exact ⟨component, isComponent, sameName⟩

lemma processAssemblies_null :
    ∀ {state after : AssemblyState}, state.currentNodes = [] ->
      assemblies.foldlM (processAssembly fun _ _ => none) state = some after ->
      after.nodeTopology.nodes.length <=
          state.nodeTopology.nodes.length + (assemblies.flatMap Assembly.components).length ∧
        ((∃ assembly ∈ assemblies, ¬ assembly.HasNamesake) ->
          after.nodeTopology.nodes.length <
            state.nodeTopology.nodes.length + (assemblies.flatMap Assembly.components).length) := by
  induction assemblies with
  | nil =>
    intro state after idle processed
    cases processed
    refine ⟨Nat.le_add_right _ _, ?_⟩
    rintro ⟨assembly, impossible, _⟩
    cases impossible
  | cons assembly rest ih =>
    intro state after idle processed
    rcases bind_eq_some_iff.mp processed with ⟨between, first, later⟩
    rcases processAssembly_null idle first with ⟨idleBetween, bounded, strict⟩
    rcases ih idleBetween later with ⟨boundedLater, strictLater⟩
    rw [flatMap_cons, length_append]
    refine ⟨by omega, ?_⟩
    rintro ⟨nameless, isAssembly, hasNone⟩
    rcases mem_cons.mp isAssembly with rfl | isLater
    · have fewer := strict hasNone
      omega
    · have fewer := strictLater ⟨nameless, isLater, hasNone⟩
      omega

end

/-- What is promised of the topology of a list of assemblies. -/
structure Represents (assemblies : List Assembly) (topology : NodeTopology) : Prop where
  stems : List.Forall₂ StemsFrom topology.nodes (assemblies.flatMap Assembly.components)
  distinct : topology.addresses.Nodup
  owns : topology.Owns
  inverse : topology.Inverse

lemma Tracks.represents {state : AssemblyState}
    (tracks : Tracks (assemblies.flatMap Assembly.components) state)
    (idle : state.currentNodes = []) (order : IterationOrder (NodePtr × List Text)) :
    Represents assemblies (attachNodes order state) := by
  have allocated : state.allocated = state.nodeTopology.nodes := by
    unfold AssemblyState.allocated
    rw [idle, append_nil]
  have started : Linked (state.allocated.map Prod.fst) state.nodeTopology := by
    refine ⟨?_, ?_, ?_, ?_, ?_⟩
    · rw [tracks.noParents]
      exact forall_mem_nil _
    · rw [tracks.noParents]
      exact fun node parent member => absurd member not_mem_nil
    · rw [tracks.noChildren]
      exact forall_mem_nil _
    · rw [tracks.noChildren]
      exact fun node child member => absurd member not_mem_nil
    · intro parent child
      rw [tracks.noParents, tracks.noChildren]
      rfl
  have linked := attachNodes_linked order tracks.odataIds tracks.attached started
  rcases attachNodes_frame order state with ⟨nodes, devpaths, uris⟩
  have addresses : (attachNodes order state).addresses = state.allocated.map Prod.fst := by
    unfold NodeTopology.addresses
    rw [nodes, allocated]
  refine ⟨?_, ?_, ⟨?_, ?_, ?_, ?_, ?_, ?_⟩, linked.inverse⟩
  · rw [nodes, <- allocated]
    exact tracks.stems
  · rw [addresses]
    exact tracks.distinct
  · rw [addresses, devpaths]
    exact tracks.devpaths
  · rw [addresses, uris]
    exact tracks.uris
  · rw [addresses]
    exact linked.withParents
  · rw [addresses]
    exact linked.parents
  · rw [addresses]
    exact linked.withChildren
  · rw [addresses]
    exact linked.children

/-- The topology is as promised exactly if every assembly with components has one of its own name.
-/
theorem createNodeTopologyFromAssemblies_represents_iff :
    ∀ (order : IterationOrder (NodePtr × List Text)) (assemblies : List Assembly),
      (∃ topology,
        (∀ uninitialised,
          createNodeTopologyFromAssemblies order uninitialised assemblies = some topology) ∧
        Represents assemblies topology) ↔
      ∀ assembly ∈ assemblies, assembly.components ≠ [] ->
        ∃ component ∈ assembly.components, component.name = assembly.name := by
  intro order assemblies
  constructor
  · rintro ⟨topology, created, represents⟩
    by_contra nameless
    push Not at nameless
    rcases nameless with ⟨assembly, isAssembly, nonempty, noneNamed⟩
    have hasNone : ¬ assembly.HasNamesake := by
      intro namesake
      rcases namesake nonempty with ⟨component, isComponent, named⟩
      exact noneNamed component isComponent named
    rcases Option.bind_eq_some_iff.mp (created fun _ _ => none) with ⟨state, processed, same⟩
    cases same
    have each := represents.stems.length_eq
    rw [(attachNodes_frame order state).1] at each
    have fewer := (processAssemblies_null rfl processed).2 ⟨assembly, isAssembly, hasNone⟩
    rw [each] at fewer
    simp [AssemblyState.start, NodeTopology.empty] at fewer
  · intro namesakes
    rcases processAssemblies_named tracks_start rfl namesakes with ⟨state, processed, tracks, idle⟩
    refine ⟨attachNodes order state, ?_, tracks.represents idle order⟩
    intro uninitialised
    unfold createNodeTopologyFromAssemblies
    rw [processed uninitialised]
    rfl

/-- The nodes of an assembly without a board are not kept as orphans. -/
theorem assembly_without_board_dropped :
    ¬ ∀ (order : IterationOrder (NodePtr × List Text)) (assemblies : List Assembly),
      ∃ topology,
        (∀ uninitialised,
          createNodeTopologyFromAssemblies order uninitialised assemblies = some topology) ∧
        Represents assemblies topology := by
  intro always
  rcases always (.listed _)
    [{ name := text "riser", model := text "riser", upstreamOdataIds := [],
       components :=
        [{ odataId := text "/redfish/v1/Chassis/1/Assembly#/Assemblies/0/Oem/Google/Components/0"
           name := text "led", model := text "led", type := .device
           localDevpath := text "/phys:device:led"
           upstreamConnectorSequence := text "/phys", associatedUris := [] }] }] with
    ⟨topology, created, represents⟩
  cases created fun _ _ => none
  exact absurd represents.stems.length_eq (by decide)

end Ecclesia.Topology
