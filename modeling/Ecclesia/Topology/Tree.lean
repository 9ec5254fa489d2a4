import Ecclesia.Topology.Turns

namespace Ecclesia.Topology

open List Option Nat

/-!
# The topology is a tree

Addresses are given out in order, and a node is attached to one that is there.  So every node
but the first has one parent with a smaller address, and the first one is the root.
-/

namespace NodeTopology

def IsParent (topology : NodeTopology) (parent child : NodePtr) : Prop :=
  child ∈ topology.nodeToChildren.listAt parent

/-- A tree, in which a devpath properly extends that of the parent. -/
structure IsTree (topology : NodeTopology) (root : NodePtr) : Prop where
  distinct : topology.addresses.Nodup
  owns : topology.Owns
  inverse : topology.Inverse
  owned : root ∈ topology.addresses
  noParent : topology.nodeToParents.listAt root = []
  oneParent : ∀ node ∈ topology.addresses, node ≠ root ->
    ∃ parent, topology.nodeToParents.listAt node = [parent]
  reachable : ∀ node ∈ topology.addresses, Relation.ReflTransGen topology.IsParent root node
  devpaths : ∀ parent child, topology.IsParent parent child ->
    topology.devpathAt parent <+: topology.devpathAt child ∧
      topology.devpathAt parent ≠ topology.devpathAt child

/-- What the construction keeps once there is a root. -/
structure Growing (topology : NodeTopology) : Prop where
  numbered : topology.addresses = List.range topology.nodes.length
  nonempty : 0 < topology.nodes.length
  owns : topology.Owns
  inverse : topology.Inverse
  noParent : topology.nodeToParents.listAt 0 = []
  oneParent : ∀ node, node < topology.nodes.length -> node ≠ 0 ->
    ∃ parent, topology.nodeToParents.listAt node = [parent] ∧ parent < node
  devpaths : ∀ node parent, parent ∈ topology.nodeToParents.listAt node ->
    ∃ extension, extension ≠ [] ∧ topology.devpathAt node = topology.devpathAt parent ++ extension

variable {topology : NodeTopology} {parent : NodePtr}

lemma isParent_iff (inverse : topology.Inverse) {child : NodePtr} :
    topology.IsParent parent child ↔ parent ∈ topology.nodeToParents.listAt child := by
  unfold IsParent
  rw [<- count_pos_iff, inverse parent child, count_pos_iff]

/-- Every node is reached, by induction on its address. -/
lemma Growing.reachable (growing : topology.Growing) :
    ∀ node, node < topology.nodes.length -> Relation.ReflTransGen topology.IsParent 0 node := by
  intro node
  induction node using Nat.strongRecOn with
  | ind node ih =>
    intro owned
    by_cases isRoot : node = 0
    · rw [isRoot]
    · rcases growing.oneParent node owned isRoot with ⟨parent, only, earlier⟩
      have link : topology.IsParent parent node := by
        rw [isParent_iff growing.inverse, only]
        exact mem_singleton_self parent
      exact .tail (ih parent earlier (Nat.lt_trans earlier owned)) link

lemma Growing.isTree (growing : topology.Growing) : topology.IsTree 0 := by
  have address : ∀ node, node ∈ topology.addresses ↔ node < topology.nodes.length := by
    intro node
    rw [growing.numbered, mem_range]
  refine ⟨?_, growing.owns, growing.inverse, (address 0).mpr growing.nonempty, growing.noParent,
    ?_, ?_, ?_⟩
  · rw [growing.numbered]
    exact nodup_range
  · intro node owned notRoot
    rcases growing.oneParent node ((address node).mp owned) notRoot with ⟨parent, only, _⟩
    exact ⟨parent, only⟩
  · intro node owned
    exact growing.reachable node ((address node).mp owned)
  · intro parent child link
    rcases growing.devpaths child parent ((isParent_iff growing.inverse).mp link) with
      ⟨extension, extended, devpath⟩
    rw [devpath]
    refine ⟨prefix_append _ _, ?_⟩
    intro same
    exact extended (self_eq_append_right.mp same)

lemma addresses_associate (topology : NodeTopology) (node : NodePtr) (currentUri : Text) :
    (topology.associate node currentUri).addresses = topology.addresses := by
  unfold addresses associate
  simp only [addresses_updateNode]

lemma lookup_updateNode (address : NodePtr) (update : Node -> Node)
    (entries : List (NodePtr × Node)) (node : NodePtr) :
    (updateNode address update entries).lookup node =
      (entries.lookup node).map fun found => if node = address then update found else found := by
  unfold updateNode
  induction entries with
  | nil => rfl
  | cons entry rest ih =>
    rcases entry with ⟨present, current⟩
    rw [map_cons]
    by_cases same : node = present
    · subst same
      by_cases isAddress : node = address
      · simp [isAddress]
      · simp [isAddress]
    · by_cases isAddress : present = address
      · simp only [isAddress, if_true, lookup_cons, beq_false_of_ne (isAddress ▸ same), ih]
      · simp only [isAddress, if_false, lookup_cons, beq_false_of_ne same, ih]

lemma devpathAt_associate (topology : NodeTopology) (node other : NodePtr) (currentUri : Text) :
    (topology.associate node currentUri).devpathAt other = topology.devpathAt other := by
  unfold devpathAt associate
  simp only [lookup_updateNode, Option.map_map]
  congr 2
  funext found
  by_cases same : other = node
  · simp [same]
  · simp [same]

lemma Growing.associate (growing : topology.Growing) {node : NodePtr}
    (owned : node < topology.nodes.length) (currentUri : Text) :
    (topology.associate node currentUri).Growing := by
  have length : (topology.associate node currentUri).nodes.length = topology.nodes.length :=
    length_map _
  have owns : (topology.associate node currentUri).Owns := by
    have before := growing.owns
    refine ⟨?_, ?_, ?_, ?_, ?_, ?_⟩
    all_goals rw [addresses_associate]
    · exact before.devpaths
    · intro uri other member
      rcases mem_listAt_pushBack member with same | earlier
      · rw [same, growing.numbered]
        exact mem_range.mpr owned
      · exact before.uris uri other earlier
    · exact before.withParents
    · exact before.parents
    · exact before.withChildren
    · exact before.children
  refine ⟨?_, ?_, owns, growing.inverse, growing.noParent, ?_, ?_⟩
  · rw [addresses_associate, length]
    exact growing.numbered
  · rw [length]
    exact growing.nonempty
  · rw [length]
    exact growing.oneParent
  · intro other parent isParent
    rw [devpathAt_associate, devpathAt_associate]
    exact growing.devpaths other parent isParent

section

variable (topology : NodeTopology) (currentUri : Text) (node : Node)

lemma addresses_addNode :
    (topology.addNode currentUri node).addresses =
      topology.addresses ++ [topology.nodes.length] := by
  unfold addresses addNode
  rw [map_append, map_singleton]

lemma length_addNode :
    (topology.addNode currentUri node).nodes.length = topology.nodes.length + 1 := by
  unfold addNode
  rw [length_append, length_singleton]

end

lemma devpathAt_addNode_of_mem {other : NodePtr} (owned : other ∈ topology.addresses)
    (currentUri : Text) (node : Node) :
    (topology.addNode currentUri node).devpathAt other = topology.devpathAt other := by
  unfold devpathAt addNode
  rcases isSome_iff_exists.mp (lookup_isSome_iff.mpr owned) with ⟨found, isFound⟩
  simp only [lookup_append, isFound, some_or]

lemma devpathAt_addNode (fresh : topology.nodes.length ∉ topology.addresses) (currentUri : Text)
    (node : Node) :
    (topology.addNode currentUri node).devpathAt topology.nodes.length = node.localDevpath := by
  unfold devpathAt addNode
  have absent : topology.nodes.lookup topology.nodes.length = none := by
    rw [<- not_isSome_iff_eq_none]
    exact fun present => fresh (lookup_isSome_iff.mp present)
  simp [lookup_append, absent]

lemma growing_addNode_empty (currentUri : Text) (node : Node) :
    (empty.addNode currentUri node).Growing := by
  have owns : (empty.addNode currentUri node).Owns := by
    refine ⟨?_, ?_, ?_, ?_, ?_, ?_⟩
    · intro devpath other found
      rcases lookup_assign_cases found with same | before
      · rw [same]
        exact mem_singleton_self _
      · cases before
    · intro uri other member
      rcases mem_listAt_pushBack member with same | before
      · rw [same]
        exact mem_singleton_self _
      · cases before
    · exact forall_mem_nil _
    · exact fun other parent member => absurd member not_mem_nil
    · exact forall_mem_nil _
    · exact fun other child member => absurd member not_mem_nil
  refine ⟨rfl, Nat.one_pos, owns, fun parent child => rfl, rfl, ?_, ?_⟩
  · intro other owned notRoot
    exact absurd (lt_one_iff.mp owned) notRoot
  · exact fun other parent member => absurd member not_mem_nil

lemma listAt_parents_addChild (topology : NodeTopology) (parent other : NodePtr)
    (currentUri : Text) (node : Node) :
    (topology.addChild parent currentUri node).nodeToParents.listAt other =
      if other == topology.nodes.length then
        topology.nodeToParents.listAt topology.nodes.length ++ [parent]
      else topology.nodeToParents.listAt other :=
  HashMap.listAt_pushBack _ _ _ _

lemma owns_addChild (owns : topology.Owns) (owned : parent ∈ topology.addresses) (currentUri : Text)
    (node : Node) : (topology.addChild parent currentUri node).Owns := by
  have addresses : (topology.addChild parent currentUri node).addresses =
      topology.addresses ++ [topology.nodes.length] := addresses_addNode topology currentUri node
  have isNew : topology.nodes.length ∈ topology.addresses ++ [topology.nodes.length] :=
    mem_append_right _ (mem_singleton_self _)
  have old : ∀ other ∈ topology.addresses, other ∈ topology.addresses ++ [topology.nodes.length] :=
    fun _ member => mem_append_left _ member
  refine ⟨?_, ?_, ?_, ?_, ?_, ?_⟩
  all_goals rw [addresses]
  · intro devpath other found
    rcases lookup_assign_cases found with same | before
    · rw [same]
      exact isNew
    · exact old _ (owns.devpaths devpath other before)
  · intro uri other member
    rcases mem_listAt_pushBack member with same | before
    · rw [same]
      exact isNew
    · exact old _ (owns.uris uri other before)
  · intro other member
    rcases (HashMap.mem_keys_pushBack _ _ _ _).mp member with same | before
    · rw [same]
      exact isNew
    · exact old _ (owns.withParents other before)
  · intro other above member
    rcases mem_listAt_pushBack member with same | before
    · rw [same]
      exact old _ owned
    · exact old _ (owns.parents other above before)
  · intro other member
    rcases (HashMap.mem_keys_pushBack _ _ _ _).mp member with same | before
    · rw [same]
      exact old _ owned
    · exact old _ (owns.withChildren other before)
  · intro other below member
    rcases mem_listAt_pushBack member with same | before
    · rw [same]
      exact isNew
    · exact old _ (owns.children other below before)

lemma Growing.addChild (growing : topology.Growing) (owned : parent < topology.nodes.length)
    {node : Node} {extension : Text} (extended : extension ≠ [])
    (devpath : node.localDevpath = topology.devpathAt parent ++ extension) (currentUri : Text) :
    (topology.addChild parent currentUri node).Growing := by
  have address : ∀ other, other ∈ topology.addresses ↔ other < topology.nodes.length := by
    intro other
    rw [growing.numbered, mem_range]
  have fresh : topology.nodes.length ∉ topology.addresses := by
    rw [address]
    exact Nat.lt_irrefl _
  have orphan : topology.nodeToParents.listAt topology.nodes.length = [] := by
    apply eq_nil_iff_forall_not_mem.mpr
    intro above member
    exact fresh (growing.owns.withParents _ (HashMap.mem_keys_of_mem_listAt member))
  have length : (topology.addChild parent currentUri node).nodes.length =
      topology.nodes.length + 1 := length_addNode topology currentUri node
  refine ⟨?_, ?_, owns_addChild growing.owns ((address parent).mpr owned) currentUri node, ?_, ?_,
    ?_, ?_⟩
  · rw [length, range_succ, <- growing.numbered]
    exact addresses_addNode topology currentUri node
  · rw [length]
    exact succ_pos _
  · intro above below
    have before := growing.inverse above below
    unfold NodeTopology.addChild
    simp only [count_listAt_pushBack]
    rw [before]
    simp only [eq_comm, and_comm]
  · rw [listAt_parents_addChild, if_neg]
    · exact growing.noParent
    · rw [beq_iff_eq]
      exact Nat.ne_of_lt growing.nonempty
  · intro other below notRoot
    rw [listAt_parents_addChild]
    by_cases isNew : other = topology.nodes.length
    · subst isNew
      rw [if_pos (beq_self_eq_true _), orphan]
      exact ⟨parent, rfl, owned⟩
    · rw [if_neg (by simpa using isNew)]
      rw [length] at below
      exact growing.oneParent other (Nat.lt_of_le_of_ne (le_of_lt_succ below) isNew) notRoot
  · intro other above member
    rw [listAt_parents_addChild] at member
    by_cases isNew : other = topology.nodes.length
    · subst isNew
      rw [if_pos (beq_self_eq_true _), orphan, nil_append, mem_singleton] at member
      subst member
      refine ⟨extension, extended, ?_⟩
      have same := devpathAt_addNode_of_mem ((address above).mpr owned) currentUri node
      have new := devpathAt_addNode fresh currentUri node
      exact new.trans (devpath.trans (congrArg (· ++ extension) same.symm))
    · rw [if_neg (by simpa using isNew)] at member
      rcases growing.devpaths other above member with ⟨longer, nonempty, found⟩
      have ownedAbove := growing.owns.parents other above member
      have ownedBelow := growing.owns.withParents other (HashMap.mem_keys_of_mem_listAt member)
      have sameAbove := devpathAt_addNode_of_mem ownedAbove currentUri node
      have sameBelow := devpathAt_addNode_of_mem ownedBelow currentUri node
      refine ⟨longer, nonempty, ?_⟩
      exact sameBelow.trans (found.trans (congrArg (· ++ longer) sameAbove.symm))

end NodeTopology

section

variable {Object Iterable : Type} {graph : RedfishGraph Object Iterable}

/-- Between two turns the tree has grown, and the queue has been found at its nodes. -/
structure Building.Sound (state : Building Object) : Prop where
  growing : state.topology.Growing
  parents : ∀ entry ∈ state.queue,
    ∃ parent, entry.parent = some parent ∧ parent < state.topology.nodes.length

variable {config : TopologyConfig} {state after : Building Object}

lemma Attached.remaining_le {parent : NodePtr} {obj : Object}
    (attached : Attached graph config ⟨some parent, obj⟩ state after) :
    remaining graph (after.queue, after.visitedUris) <=
      remaining graph (state.queue, state.visitedUris) := by
  rcases attached with ⟨currentUri, current, first, visitedUris, _, made, grows, queued⟩
  have attaches := attach_cases made
  rcases after with ⟨topology, queue, visited⟩
  have none : first = [] := by
    cases attaches with
    | toParent => rfl
    | child => rfl
  subst none
  apply Nat.le_trans (Queues.remaining_le queued)
  rw [append_nil]
  exact Nat.add_le_add_left (unvisited_mono grows) _

lemma Attached.sound {parent : NodePtr} {obj : Object} (sound : state.Sound)
    (owned : parent < state.topology.nodes.length)
    (attached : Attached graph config ⟨some parent, obj⟩ state after) : after.Sound := by
  rcases attached with ⟨currentUri, current, first, visitedUris, _, made, _, queued⟩
  have attaches := attach_cases made
  have found := Queues.mem_queue queued
  rcases after with ⟨topology, queue, visited⟩
  -- The queue keeps what it had, and all that is new is at the current node.
  have parents : state.topology.nodes.length <= topology.nodes.length ->
      current < topology.nodes.length -> first = [] ->
      ∀ entry ∈ queue, ∃ parent, entry.parent = some parent ∧ parent < topology.nodes.length := by
    intro more isNode none entry member
    rcases found entry member with before | isCurrent
    · rw [none, append_nil] at before
      rcases sound.parents entry before with ⟨above, isAbove, ownedAbove⟩
      exact ⟨above, isAbove, Nat.lt_of_lt_of_le ownedAbove more⟩
    · exact ⟨current, isCurrent, isNode⟩
  cases attaches with
  | toParent parent obj unlocated =>
    have length : (state.topology.associate parent currentUri).nodes.length =
        state.topology.nodes.length := length_map _
    refine ⟨sound.growing.associate owned currentUri, parents ?_ ?_ rfl⟩
    · exact Nat.le_of_eq length.symm
    · exact Nat.lt_of_lt_of_eq owned length.symm
  | child parent obj nodeLocation node extension located made associated extended devpath =>
    have length : (state.topology.addChild parent currentUri node).nodes.length =
        state.topology.nodes.length + 1 := NodeTopology.length_addNode _ currentUri node
    refine ⟨sound.growing.addChild owned extended devpath currentUri, parents ?_ ?_ rfl⟩
    · exact Nat.le_of_lt (lt_of_succ_le (Nat.le_of_eq length.symm))
    · exact lt_of_succ_le (Nat.le_of_eq length.symm)

/-- The first turn makes the root. -/
lemma Attached.sound_root {obj : Object} {visited : HashSet Text}
    (attached : Attached graph config ⟨none, obj⟩ ⟨.empty, [], visited⟩ after) :
    after.Sound ∧
      remaining graph (after.queue, after.visitedUris) <= 1 + unvisited graph visited := by
  rcases attached with ⟨currentUri, current, first, visitedUris, _, made, grows, queued⟩
  have attaches := attach_cases made
  have found := Queues.mem_queue queued
  have fewer := Queues.remaining_le queued
  rcases after with ⟨topology, queue, visitedAfter⟩
  cases attaches with
  | root obj node associated =>
    refine ⟨⟨NodeTopology.growing_addNode_empty currentUri node, ?_⟩, ?_⟩
    · intro entry member
      rcases found entry member with before | isCurrent
      · rcases mem_map.mp before with ⟨newRoot, _, same⟩
        rw [<- same]
        exact ⟨0, rfl, Nat.one_pos⟩
      · exact ⟨0, isCurrent, Nat.one_pos⟩
    · apply Nat.le_trans fewer
      apply Nat.add_le_add
      · cases googleServiceRoot graph config with
        | none => exact Nat.zero_le 1
        | some newRoot => exact Nat.le_refl 1
      · exact unvisited_mono grows

lemma attachQueued_isTree {config : TopologyConfig} {cableMap : HashMap Text (List Text)}
    (areCables : ∀ upstreamUri uri, uri ∈ cableMap.listAt upstreamUri ->
      uri ∈ cableUris graph config) {bound : Nat} (enough : graph.uris.length < bound) :
    ∀ (turns : Nat) (state : Building Object), state.Sound ->
      remaining graph (state.queue, state.visitedUris) < turns ->
      ∃ topology, attachQueued graph config cableMap bound turns state = some topology ∧
        topology.IsTree 0 := by
  intro turns
  induction turns with
  | zero => exact fun state _ impossible => absurd impossible (Nat.not_lt_zero _)
  | succ turns ih =>
    rintro ⟨topology, queue, visited⟩ sound few
    rw [attachQueued]
    cases queue with
    | nil => exact ⟨topology, rfl, sound.growing.isTree⟩
    | cons toAttach rest =>
      rcases toAttach with ⟨parent?, obj⟩
      rcases sound.parents _ (.head _) with ⟨parent, hasParent, owned⟩
      subst hasParent
      have soundRest : Building.Sound ⟨topology, rest, visited⟩ :=
        ⟨sound.growing, fun entry member =>
          sound.parents entry (.tail _ member)⟩
      have fewer : remaining graph (rest, visited) < turns := by
        rw [remaining_cons] at few
        exact lt_of_succ_lt_succ few
      have bounded : unvisited graph visited < bound :=
        Nat.lt_of_le_of_lt (length_filter_le _ _) enough
      rcases @turn_ends _ _ graph config bound ⟨topology, rest, visited⟩ bounded cableMap
          ⟨some parent, obj⟩ with ⟨after, ended⟩
      simp only [ended]
      rcases turn_cases areCables ended with ⟨same, _⟩ | attached
      · rw [same]
        exact ih _ soundRest fewer
      · exact ih after (attached.sound soundRest owned)
          (Nat.lt_of_le_of_lt attached.remaining_le fewer)

variable {cableMap : HashMap Text (List Text)}

lemma turn_mono {bound more : Nat} (enough : bound <= more) {toAttach : AttachingNodes Object}
    (ended : turn graph config cableMap bound toAttach state = some after) :
    turn graph config cableMap more toAttach state = some after := by
  unfold turn at ended ⊢
  cases isUri : graph.getUriString toAttach.obj with
  | none =>
    simp only [isUri] at ended
    exact ended
  | some currentUri =>
    simp only [isUri] at ended ⊢
    cases attached : attach graph config state.topology currentUri toAttach with
    | none =>
      simp only [attached] at ended
      exact ended
    | some result =>
      simp only [attached] at ended ⊢
      cases found : findAllDownstreamsUris graph config bound toAttach.obj state.visitedUris with
      | none =>
        rw [found] at ended
        cases ended
      | some downstreams =>
        rw [found] at ended
        rw [findAllDownstreamsUris_mono enough found]
        exact ended

lemma attachQueued_mono {bound more : Nat} (enough : bound <= more) {turns moreTurns : Nat}
    {state : Building Object} {topology : NodeTopology} (enoughTurns : turns <= moreTurns)
    (ended : attachQueued graph config cableMap bound turns state = some topology) :
    attachQueued graph config cableMap more moreTurns state = some topology := by
  induction turns generalizing moreTurns state with
  | zero => cases ended
  | succ turns ih =>
    rcases exists_eq_succ_of_ne_zero (Nat.ne_zero_of_lt enoughTurns) with ⟨moreTurns, rfl⟩
    rw [attachQueued] at ended ⊢
    cases queued : state.queue with
    | nil =>
      rw [queued] at ended
      exact ended
    | cons toAttach rest =>
      rw [queued] at ended
      rcases bind_eq_some_iff.mp ended with ⟨after, first, later⟩
      exact bind_eq_some_iff.mpr ⟨after, turn_mono enough first,
        ih (le_of_succ_le_succ enoughTurns) later⟩

lemma findRootNode_mono {bound more : Nat} {root : Object} (enough : bound <= more)
    (found : findRootNode graph config bound = some (.ok root)) :
    findRootNode graph config more = some (.ok root) := by
  unfold findRootNode at found ⊢
  cases isLink : config.findRootNode.chassisLink with
  | none =>
    rw [isLink] at found
    cases found
  | some chassisLink =>
    rw [isLink] at found
    unfold findRootChassisUri at found ⊢
    cases first : firstChassis graph with
    | error status =>
      rw [first] at found
      cases found
    | ok chassis =>
      rw [first] at found
      cases mapped : cableDownstreamToUpstreamMap graph config with
      | none =>
        rw [mapped] at found
        cases found
      | some upstreamMap =>
        rw [mapped] at found
        rcases map_eq_some_iff.mp found with ⟨last, walked, same⟩
        simp only
        rw [walkToEnd_mono enough walked, map_some, same]

end

/-- Once a root has been found, the construction ends, and a root with a URI grows a tree. -/
theorem createTopologyFromRedfishV2_isTree :
    ∀ (Object Iterable : Type) (graph : RedfishGraph Object Iterable)
      (config : TopologyConfig) (steps : Nat) (root : Object),
      findRootNode graph config steps = some (.ok root) ->
      ∃ topology,
        (∃ enough, ∀ bound, enough <= bound ->
          createTopologyFromRedfishV2 graph config bound = some topology) ∧
        match graph.getUriString root with
        | none => topology = .empty
        | some _ => ∃ rootNode, topology.IsTree rootNode := by
  intro Object Iterable graph config steps root found
  have construct : ∀ (turns : Nat) (topology : NodeTopology),
      attachQueued graph config (getUpstreamUriToAttachedCableMap graph config)
        (graph.uris.length + 1) turns (startBuilding root) = some topology ->
      ∃ enough, ∀ bound, enough <= bound ->
        createTopologyFromRedfishV2 graph config bound = some topology := by
    intro turns topology ended
    refine ⟨max steps (max (graph.uris.length + 1) turns), ?_⟩
    intro bound enough
    rcases max_le_iff.mp enough with ⟨forRoot, others⟩
    rcases max_le_iff.mp others with ⟨forDepth, forTurns⟩
    unfold createTopologyFromRedfishV2
    rw [findRootNode_mono forRoot found]
    exact attachQueued_mono forDepth forTurns ended
  have bounded : unvisited graph .empty < graph.uris.length + 1 := unvisited_empty_lt
  have areCables : ∀ upstreamUri uri,
      uri ∈ (getUpstreamUriToAttachedCableMap graph config).listAt upstreamUri ->
        uri ∈ cableUris graph config :=
    fun upstreamUri uri member => mem_cableUris_of_cableMap member
  rcases @turn_ends _ _ graph config _ ⟨.empty, [], .empty⟩ bounded
      (getUpstreamUriToAttachedCableMap graph config) ⟨none, root⟩ with ⟨after, ended⟩
  rcases turn_cases areCables ended with ⟨same, leftOut⟩ | attached
  · subst same
    -- The root is left out only if it has no URI, since it is attached without a check.
    cases isUri : graph.getUriString root with
    | some currentUri => cases leftOut currentUri isUri
    | none =>
      refine ⟨.empty, construct 2 .empty ?_, rfl⟩
      simp only [attachQueued, startBuilding, ended, Option.bind_some]
  · rcases attached.sound_root with ⟨sound, few⟩
    rcases @attachQueued_isTree _ _ graph config _ areCables _ (Nat.lt_succ_self _) _ after sound
        (Nat.lt_succ_self _) with ⟨topology, finished, isTree⟩
    refine ⟨topology, construct (remaining graph (after.queue, after.visitedUris) + 1 + 1) topology
      ?_, ?_⟩
    · rw [attachQueued]
      simp only [startBuilding, ended]
      exact finished
    · rcases attached with ⟨currentUri, _, _, _, isUri, _⟩
      rw [isUri]
      exact ⟨0, isTree⟩

/-- Two chassis without links to each other, of which the first one is the root. -/
theorem createTopologyFromRedfishV2_isTree_chassis :
    ∃ topology,
      (∃ enough, ∀ bound, enough <= bound ->
        createTopologyFromRedfishV2 enclosedInEachOther
          ⟨⟨some (text "PoweredBy"), false⟩, .empty, []⟩ bound = some topology) ∧
      ∃ rootNode, topology.IsTree rootNode :=
  createTopologyFromRedfishV2_isTree _ _ enclosedInEachOther
    ⟨⟨some (text "PoweredBy"), false⟩, .empty, []⟩ 1 (.chassis false) (by rfl)

end Ecclesia.Topology
