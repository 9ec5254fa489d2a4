import Ecclesia.Library.Levels
import Ecclesia.Topology.Links
import Ecclesia.Topology.Tree

namespace Ecclesia.Topology

open List Option
open LevelSearch (exists_level_nil_iff mem_level_iff run_ends)

/-!
# Replaceable ancestors

The replaceable node for a devpath is searched for upwards, from the node of the devpath along
the parents.  The search keeps no record of where it has been.  In a topology of the second
kind every node has at most one parent, which was there before it.  In one of the first kind
the parents are whatever the references name, and no node is replaceable.

The definitions follow `devpath.cc`.
-/

/-- `GetFirstUriForDevpath`.  A pointer to no node leaves the behaviour undefined. -/
def getFirstUriForDevpath (topology : NodeTopology) (devpath : Text) : Option (StatusOr Text) :=
  match topology.devpathToNodeMap.lookup devpath with
  | none => some (.error (.notFound (text "Unable to find a uri for devpath " ++ devpath)))
  | some pointer =>
    match topology.nodes.lookup pointer with
    | none => none
    | some node =>
      match node.associatedUris with
      | [] => some (.error (.notFound (text "Unable to find a uri for devpath " ++ devpath)))
      | uri :: _ => some (.ok uri)

def replaceableSearch (topology : NodeTopology) : LevelSearch NodePtr where
  examine pointer := (topology.nodes.lookup pointer).map Node.replaceable
  next pointer := topology.nodeToParents.listAt pointer

/-- `GetReplaceableDevpathForDevpathAndNodeTopology`, with a bound on the turns of its loop. -/
def getReplaceableDevpathForDevpathAndNodeTopology (devpath : Text) (topology : NodeTopology)
    (alternateResolver : NodeTopology -> Text -> Option Text) (turns : Nat) :
    Option (StatusOr Text) :=
  match getFirstUriForDevpath topology devpath with
  | none => none
  | some firstUri =>
    match alternateResolver topology (firstUri.toOption.getD []) with
    | some replaceableDevpath => some (.ok replaceableDevpath)
    | none =>
      match topology.devpathToNodeMap.lookup devpath with
      | none =>
        some (.error (.notFound (text "NodeTopology not found through devpath: " ++ devpath)))
      | some node =>
        match (replaceableSearch topology).run turns [node] with
        | none => none
        | some none =>
          some (.error (.notFound (text "No parent is replaceable: " ++ devpath)))
        | some (some found) =>
          (topology.nodes.lookup found).map fun node => .ok node.localDevpath

/-! ## What is asked for -/

namespace NodeTopology

def HasParent (topology : NodeTopology) (node parent : NodePtr) : Prop :=
  parent ∈ topology.nodeToParents.listAt node

/-- A node at a distance upwards, with what the topology holds there. -/
def IsAncestor (topology : NodeTopology) (start : NodePtr) (distance : Nat) (node : Node) : Prop :=
  ∃ pointer, LevelSearch.AtDistance topology.HasParent start distance pointer ∧
    topology.nodes.lookup pointer = some node

/-- The devpath of a replaceable node at the least distance upwards from the node of a devpath. -/
def IsNearestReplaceable (topology : NodeTopology) (devpath localDevpath : Text) : Prop :=
  ∃ start distance node, topology.devpathToNodeMap.lookup devpath = some start ∧
    topology.IsAncestor start distance node ∧ node.replaceable = true ∧
    node.localDevpath = localDevpath ∧
    ∀ nearer other, topology.IsAncestor start nearer other -> other.replaceable = true ->
      distance <= nearer

/-- The devpath is unknown, or neither its node nor any ancestor is replaceable. -/
def NoneReplaceable (topology : NodeTopology) (devpath : Text) : Prop :=
  ∀ start, topology.devpathToNodeMap.lookup devpath = some start ->
    ∀ distance node, topology.IsAncestor start distance node -> node.replaceable = false

def NoAlternate (topology : NodeTopology) (devpath : Text)
    (alternateResolver : NodeTopology -> Text -> Option Text) : Prop :=
  ∀ firstUri, getFirstUriForDevpath topology devpath = some firstUri ->
    alternateResolver topology (firstUri.toOption.getD []) = none

/-- The search ends, with a nearest replaceable node, or with a status if there is none. -/
def FindsReplaceable (topology : NodeTopology) (devpath : Text)
    (alternateResolver : NodeTopology -> Text -> Option Text) : Prop :=
  ∃ turns outcome,
    getReplaceableDevpathForDevpathAndNodeTopology devpath topology alternateResolver turns =
      some outcome ∧
    match outcome with
    | .ok localDevpath => topology.IsNearestReplaceable devpath localDevpath
    | .error status => status.code = .notFound ∧ topology.NoneReplaceable devpath

end NodeTopology

open NodeTopology

section

variable {topology : NodeTopology} {devpath : Text}
  {alternateResolver : NodeTopology -> Text -> Option Text}

lemma findsReplaceable_of_unknown (noAlternate : topology.NoAlternate devpath alternateResolver)
    (unknown : topology.devpathToNodeMap.lookup devpath = none) :
    topology.FindsReplaceable devpath alternateResolver := by
  have firstUri : getFirstUriForDevpath topology devpath =
      some (.error (.notFound (text "Unable to find a uri for devpath " ++ devpath))) := by
    rw [getFirstUriForDevpath, unknown]
  refine ⟨0, .error (.notFound (text "NodeTopology not found through devpath: " ++ devpath)),
    ?_, rfl, ?_⟩
  · unfold getReplaceableDevpathForDevpathAndNodeTopology
    rw [firstUri]
    dsimp only
    rw [noAlternate _ firstUri, unknown]
  · intro start known
    rw [unknown] at known
    cases known

variable {start : NodePtr}

lemma getReplaceableDevpath_of_known (noAlternate : topology.NoAlternate devpath alternateResolver)
    (known : topology.devpathToNodeMap.lookup devpath = some start)
    (owned : start ∈ topology.addresses) (turns : Nat) :
    getReplaceableDevpathForDevpathAndNodeTopology devpath topology alternateResolver turns =
      match (replaceableSearch topology).run turns [start] with
      | none => none
      | some none => some (.error (.notFound (text "No parent is replaceable: " ++ devpath)))
      | some (some found) =>
        (topology.nodes.lookup found).map fun node => .ok node.localDevpath := by
  have firstUri : ∃ uri, getFirstUriForDevpath topology devpath = some uri := by
    rcases isSome_iff_exists.mp (lookup_isSome_iff.mpr owned) with ⟨node, isNode⟩
    rw [getFirstUriForDevpath, known]
    simp only [isNode]
    cases node.associatedUris with
    | nil => exact ⟨_, rfl⟩
    | cons uri rest => exact ⟨_, rfl⟩
  rcases firstUri with ⟨uri, firstUri⟩
  unfold getReplaceableDevpathForDevpathAndNodeTopology
  rw [firstUri]
  dsimp only
  rw [noAlternate uri firstUri, known]

lemma examine_eq_some_iff {pointer : NodePtr} {isReplaceable : Bool} :
    (replaceableSearch topology).examine pointer = some isReplaceable ↔
      ∃ node, topology.nodes.lookup pointer = some node ∧ node.replaceable = isReplaceable :=
  map_eq_some_iff

lemma examine_eq_none_iff {pointer : NodePtr} :
    (replaceableSearch topology).examine pointer = none ↔ pointer ∉ topology.addresses := by
  change Option.map _ _ = none ↔ _
  rw [map_eq_none_iff, <- not_isSome_iff_eq_none, lookup_isSome_iff]
  rfl

section

variable (noAlternate : topology.NoAlternate devpath alternateResolver)
  (known : topology.devpathToNodeMap.lookup devpath = some start)

include noAlternate known

lemma findsReplaceable_of_replaceable
    (owned : ∀ ancestor, Relation.ReflTransGen topology.HasParent start ancestor ->
      ancestor ∈ topology.addresses) {distance : Nat} {node : Node}
    (ancestor : topology.IsAncestor start distance node) (replaceable : node.replaceable = true) :
    topology.FindsReplaceable devpath alternateResolver := by
  have examined : ∀ distance pointer,
      pointer ∈ (replaceableSearch topology).level [start] distance ->
        (replaceableSearch topology).examine pointer ≠ none := by
    intro distance pointer member undefined
    exact examine_eq_none_iff.mp undefined (owned pointer (mem_level_iff.mp member).reaches)
  rcases ancestor with ⟨pointer, at_, isNode⟩
  rcases LevelSearch.run_finds examined ⟨distance, pointer, mem_level_iff.mpr at_,
      examine_eq_some_iff.mpr ⟨node, isNode, replaceable⟩⟩ with
    ⟨turns, found, nearest, ran, member, isGoal, least⟩
  rcases examine_eq_some_iff.mp isGoal with ⟨foundNode, isFound, foundReplaceable⟩
  refine ⟨turns, .ok foundNode.localDevpath, ?_, start, nearest, foundNode, known,
    ⟨found, mem_level_iff.mp member, isFound⟩, foundReplaceable, rfl, ?_⟩
  · rw [getReplaceableDevpath_of_known noAlternate known (owned start .refl), ran]
    dsimp only
    rw [isFound]
    rfl
  · rintro nearer other ⟨otherPointer, otherAt, isOther⟩ otherReplaceable
    exact least nearer otherPointer (mem_level_iff.mpr otherAt)
      (examine_eq_some_iff.mpr ⟨other, isOther, otherReplaceable⟩)

/-- Without a replaceable ancestor the search is as asked for exactly if all ancestors are nodes of
the topology and do not form a cycle. -/
lemma findsReplaceable_iff_of_noneReplaceable (none_ : topology.NoneReplaceable devpath) :
    topology.FindsReplaceable devpath alternateResolver ↔
      (∀ ancestor, Relation.ReflTransGen topology.HasParent start ancestor ->
        ancestor ∈ topology.addresses) ∧
      ¬ ReachesCycle topology.HasParent start := by
  have noGoal : ∀ distance pointer,
      pointer ∈ (replaceableSearch topology).level [start] distance ->
        (replaceableSearch topology).examine pointer ≠ some true := by
    intro distance pointer member isGoal
    rcases examine_eq_some_iff.mp isGoal with ⟨node, isNode, replaceable⟩
    have isNone := none_ start known distance node ⟨pointer, mem_level_iff.mp member, isNode⟩
    rw [replaceable] at isNone
    cases isNone
  have ends := LevelSearch.run_ends_iff noGoal
  constructor
  · rintro ⟨turns, outcome, ended, _⟩
    by_cases owned : start ∈ topology.addresses
    · rw [getReplaceableDevpath_of_known noAlternate known owned] at ended
      have finished : ∃ found, (replaceableSearch topology).run turns [start] = some found := by
        cases ran : (replaceableSearch topology).run turns [start] with
        | none =>
          rw [ran] at ended
          cases ended
        | some found => exact ⟨found, rfl⟩
      rcases finished with ⟨found, ran⟩
      rcases ends.mp ⟨turns, found, ran⟩ with ⟨passes, empties⟩
      have allOwned : ∀ ancestor, Relation.ReflTransGen topology.HasParent start ancestor ->
          ancestor ∈ topology.addresses := by
        intro ancestor reached
        rcases LevelSearch.exists_atDistance reached with ⟨distance, at_⟩
        by_contra stranger
        have examined := passes distance ancestor (mem_level_iff.mpr at_)
        rw [examine_eq_none_iff.mpr stranger] at examined
        cases examined
      exact ⟨allOwned, (exists_level_nil_iff allOwned).mp empties⟩
    · have undefined : getFirstUriForDevpath topology devpath = none := by
        rw [getFirstUriForDevpath, known]
        dsimp only
        cases isNode : topology.nodes.lookup start with
        | none => rfl
        | some node =>
          apply absurd _ owned
          apply lookup_isSome_iff.mp
          rw [isNode]
          rfl
      unfold getReplaceableDevpathForDevpathAndNodeTopology at ended
      rw [undefined] at ended
      cases ended
  · rintro ⟨owned, straight⟩
    have passes : ∀ distance,
        (replaceableSearch topology).Passes ((replaceableSearch topology).level [start] distance) := by
      intro distance pointer member
      cases examined : (replaceableSearch topology).examine pointer with
      | none =>
        exact absurd (owned pointer (mem_level_iff.mp member).reaches)
          (examine_eq_none_iff.mp examined)
      | some isGoal =>
        cases isGoal with
        | true => exact absurd examined (noGoal distance pointer member)
        | false => rfl
    have emptied : ∃ distance, (replaceableSearch topology).level [start] distance = [] :=
      (exists_level_nil_iff owned).mpr straight
    rcases emptied with ⟨distance, empty⟩
    rcases run_ends (fun nearer _ => passes nearer) empty with ⟨turns, ran⟩
    refine ⟨turns, .error (.notFound (text "No parent is replaceable: " ++ devpath)), ?_, rfl, none_⟩
    rw [getReplaceableDevpath_of_known noAlternate known (owned start .refl), ran]

end

end

/-! ## Topologies of assemblies -/

def NoneOf (entries : List (NodePtr × Node)) : Prop :=
  ∀ entry ∈ entries, entry.2.replaceable = false

lemma NoneOf.append {first second : List (NodePtr × Node)} (noneFirst : NoneOf first)
    (noneSecond : NoneOf second) : NoneOf (first ++ second) := by
  intro entry member
  rcases mem_append.mp member with inFirst | inSecond
  · exact noneFirst entry inFirst
  · exact noneSecond entry inSecond

lemma NoneOf.updateNode {entries : List (NodePtr × Node)} (none_ : NoneOf entries)
    (address : NodePtr) (type : NodeType) :
    NoneOf (updateNode address (fun node => { node with type := type }) entries) := by
  intro entry member
  rcases mem_map.mp member with ⟨before, isBefore, rfl⟩
  split
  · exact none_ before isBefore
  · exact none_ before isBefore

lemma currentNodes_foldl_createNode (assembly : Assembly) (components : List Component) :
    ∀ state : AssemblyState, NoneOf state.currentNodes ->
      NoneOf (components.foldl (createNode assembly) state).currentNodes ∧
        (components.foldl (createNode assembly) state).nodeTopology.nodes =
          state.nodeTopology.nodes := by
  induction components with
  | nil => exact fun _ none_ => ⟨none_, rfl⟩
  | cons component rest ih =>
    intro state none_
    have created : NoneOf (createNode assembly state component).currentNodes := by
      apply none_.append
      intro entry member
      cases mem_singleton.mp member
      rfl
    exact ih (createNode assembly state component) created

variable {uninitialised : AssemblyState -> Assembly -> Option NodePtr}

lemma processAssembly_noneOf {state after : AssemblyState} {assembly : Assembly}
    (none_ : NoneOf state.nodeTopology.nodes ∧ NoneOf state.currentNodes)
    (processed : processAssembly uninitialised state assembly = some after) :
    NoneOf after.nodeTopology.nodes ∧ NoneOf after.currentNodes := by
  unfold processAssembly at processed
  split at processed
  · cases processed
    exact none_
  · rcases currentNodes_foldl_createNode assembly assembly.components state none_.2 with
      ⟨current, nodes⟩
    have noNodes : NoneOf [] := forall_mem_nil _
    unfold finishAssembly at processed
    simp only at processed
    split at processed
    · cases processed
      rw [nodes]
      exact ⟨none_.1, noNodes⟩
    · split at processed
      · cases processed
      · cases processed
        rw [nodes]
        refine ⟨?_, noNodes⟩
        have all := none_.1.append current
        split
        · exact all.updateNode _ _
        · exact all

variable {topology : NodeTopology}

lemma createNodeTopologyFromAssemblies_noneOf {order : IterationOrder (NodePtr × List Text)}
    {assemblies : List Assembly}
    (created : createNodeTopologyFromAssemblies order uninitialised assemblies = some topology) :
    NoneOf topology.nodes := by
  have run : ∀ (assemblies : List Assembly) (state after : AssemblyState),
      NoneOf state.nodeTopology.nodes ∧ NoneOf state.currentNodes ->
      assemblies.foldlM (processAssembly uninitialised) state = some after ->
      NoneOf after.nodeTopology.nodes := by
    intro assemblies
    induction assemblies with
    | nil =>
      intro state after none_ processed
      cases processed
      exact none_.1
    | cons assembly rest ih =>
      intro state after none_ processed
      rcases bind_eq_some_iff.mp processed with ⟨between, first, later⟩
      exact ih between after (processAssembly_noneOf none_ first) later
  rcases bind_eq_some_iff.mp created with ⟨state, processed, same⟩
  cases same
  have noNodes : NoneOf [] := forall_mem_nil _
  rw [(attachNodes_frame order state).1]
  exact run assemblies .start state (.intro noNodes noNodes) processed

lemma noneReplaceable_of_noneOf (none_ : NoneOf topology.nodes)
    (devpath : Text) : topology.NoneReplaceable devpath := by
  rintro start _ distance node ⟨pointer, _, isNode⟩
  rcases lookup_eq_some_iff.mp isNode with ⟨before, after, nodes, _⟩
  apply none_ (pointer, node)
  rw [nodes]
  exact mem_append_right before (.head _)

/-! ## Topologies of resources -/

variable {Object Iterable : Type} {graph : RedfishGraph Object Iterable}

lemma attachQueued_growing {config : TopologyConfig} {cableMap : HashMap Text (List Text)}
    {bound : Nat} (areCables : ∀ upstreamUri uri, uri ∈ cableMap.listAt upstreamUri ->
      uri ∈ cableUris graph config) :
    ∀ (turns : Nat) (state : Building Object) (topology : NodeTopology), state.Sound ->
      attachQueued graph config cableMap bound turns state = some topology ->
      topology.Growing := by
  intro turns
  induction turns with
  | zero =>
    intro state topology _ impossible
    cases impossible
  | succ turns ih =>
    rintro ⟨before, queue, visited⟩ topology sound ended
    cases queue with
    | nil =>
      cases ended
      exact sound.growing
    | cons toAttach rest =>
      rcases toAttach with ⟨parent?, obj⟩
      rcases sound.parents _ (.head _) with ⟨parent, hasParent, owned⟩
      subst hasParent
      have soundRest : Building.Sound ⟨before, rest, visited⟩ := ⟨sound.growing, fun entry member =>
          sound.parents entry (.tail _ member)⟩
      rcases bind_eq_some_iff.mp ended with ⟨after, turned, later⟩
      rcases turn_cases areCables turned with ⟨same, _⟩ | attached
      · rw [same] at later
        exact ih _ topology soundRest later
      · exact ih after topology (attached.sound soundRest owned) later

lemma createTopologyFromRedfishV2_growing {config : TopologyConfig} {bound : Nat}
    (created : createTopologyFromRedfishV2 graph config bound = some topology) :
    topology = .empty ∨ topology.Growing := by
  unfold createTopologyFromRedfishV2 at created
  cases found : findRootNode graph config bound with
  | none =>
    rw [found] at created
    cases created
  | some outcome =>
    rw [found] at created
    cases outcome with
    | error status =>
      cases created
      exact .inl rfl
    | ok root =>
      have areCables : ∀ upstreamUri uri,
          uri ∈ (getUpstreamUriToAttachedCableMap graph config).listAt upstreamUri ->
            uri ∈ cableUris graph config :=
        fun upstreamUri uri member => mem_cableUris_of_cableMap member
      cases bound with
      | zero => cases created
      | succ turns =>
        rcases bind_eq_some_iff.mp created with ⟨after, turned, later⟩
        rcases turn_cases areCables turned with ⟨same, _⟩ | attached
        · rw [same] at later
          cases turns with
          | zero => cases later
          | succ turns =>
            cases later
            exact .inl rfl
        · exact .inr (attachQueued_growing areCables _ _ topology attached.sound_root.1 later)

lemma NodeTopology.Growing.straight (growing : topology.Growing)
    {node : NodePtr} : ¬ Relation.TransGen topology.HasParent node node := by
  have earlier : ∀ child ancestor, Relation.TransGen topology.HasParent child ancestor ->
      ancestor < child := by
    have one : ∀ child parent, topology.HasParent child parent -> parent < child := by
      intro child parent link
      by_cases isRoot : child = 0
      · subst isRoot
        unfold NodeTopology.HasParent at link
        rw [growing.noParent] at link
        cases link
      · have isKey := HashMap.mem_keys_of_mem_listAt link
        have owned := growing.owns.withParents child isKey
        rw [growing.numbered, mem_range] at owned
        rcases growing.oneParent child owned isRoot with ⟨only, parents, less⟩
        unfold NodeTopology.HasParent at link
        rw [parents] at link
        rw [mem_singleton.mp link]
        exact less
    intro child ancestor reached
    induction reached with
    | single link => exact one _ _ link
    | tail _ link ih => exact Nat.lt_trans (one _ _ link) ih
  intro cycle
  exact Nat.lt_irrefl node (earlier node node cycle)

lemma NodeTopology.Growing.ancestors (growing : topology.Growing) {start ancestor : NodePtr}
    (owned : start ∈ topology.addresses)
    (reached : Relation.ReflTransGen topology.HasParent start ancestor) :
    ancestor ∈ topology.addresses := by
  induction reached with
  | refl => exact owned
  | tail _ link _ => exact growing.owns.parents _ _ link

lemma NodeTopology.Growing.findsReplaceable (growing : topology.Growing) {devpath : Text}
    {alternateResolver : NodeTopology -> Text -> Option Text}
    (noAlternate : topology.NoAlternate devpath alternateResolver) :
    topology.FindsReplaceable devpath alternateResolver := by
  cases known : topology.devpathToNodeMap.lookup devpath with
  | none => exact findsReplaceable_of_unknown noAlternate known
  | some start =>
    have owned : ∀ ancestor, Relation.ReflTransGen topology.HasParent start ancestor ->
        ancestor ∈ topology.addresses :=
      fun ancestor reached => growing.ancestors (growing.owns.devpaths devpath start known) reached
    by_cases none_ : topology.NoneReplaceable devpath
    · apply (findsReplaceable_iff_of_noneReplaceable noAlternate known none_).mpr
      refine ⟨owned, ?_⟩
      rintro ⟨node, _, cycle⟩
      exact growing.straight cycle
    · unfold NodeTopology.NoneReplaceable at none_
      push Not at none_
      rcases none_ with ⟨other, same, distance, node, ancestor, replaceable⟩
      rw [known] at same
      cases same
      exact findsReplaceable_of_replaceable noAlternate known owned ancestor
        (Bool.eq_true_of_not_eq_false replaceable)

/-! ## The result -/

/-- On a topology of assemblies the search is as asked for exactly if the devpath is unknown, or all
ancestors are nodes of the topology and do not form a cycle. On one of resources it always is. -/
theorem getReplaceableDevpath_finds_iff :
    ∀ (topology : NodeTopology) (devpath : Text)
        (alternateResolver : NodeTopology -> Text -> Option Text),
      topology.NoAlternate devpath alternateResolver ->
      (∀ (order : IterationOrder (NodePtr × List Text))
          (uninitialised : AssemblyState -> Assembly -> Option NodePtr)
          (assemblies : List Assembly),
        createNodeTopologyFromAssemblies order uninitialised assemblies = some topology ->
        (topology.FindsReplaceable devpath alternateResolver ↔
          ∀ start, topology.devpathToNodeMap.lookup devpath = some start ->
            (∀ ancestor, Relation.ReflTransGen topology.HasParent start ancestor ->
              ancestor ∈ topology.addresses) ∧
            ¬ ReachesCycle topology.HasParent start)) ∧
      ∀ (Object Iterable : Type) (graph : RedfishGraph Object Iterable)
          (config : TopologyConfig) (bound : Nat),
        createTopologyFromRedfishV2 graph config bound = some topology ->
        topology.FindsReplaceable devpath alternateResolver := by
  intro topology devpath alternateResolver noAlternate
  constructor
  · intro order uninitialised assemblies created
    have none_ := noneReplaceable_of_noneOf (createNodeTopologyFromAssemblies_noneOf created) devpath
    cases known : topology.devpathToNodeMap.lookup devpath with
    | none =>
      apply iff_of_true (findsReplaceable_of_unknown noAlternate known)
      intro start impossible
      cases impossible
    | some start =>
      rw [findsReplaceable_iff_of_noneReplaceable noAlternate known none_]
      constructor
      · intro straight other same
        cases same
        exact straight
      · intro straight
        exact straight start rfl
  · intro Object Iterable graph config bound created
    rcases createTopologyFromRedfishV2_growing created with rfl | growing
    · exact findsReplaceable_of_unknown noAlternate rfl
    · exact growing.findsReplaceable noAlternate

/-- A root board with a slot, and a tray in the slot that refers to itself as well. -/
def trayInItself : List Assembly :=
  [{ name := text "root", model := text "root", upstreamOdataIds := [],
     components :=
      [{ odataId := text "/redfish/v1/Chassis/0/Assembly#/Assemblies/0/Oem/Google/Components/0"
         name := text "root", model := text "root", type := .board
         localDevpath := text "/phys"
         upstreamConnectorSequence := [], associatedUris := [] },
       { odataId := text "/redfish/v1/Chassis/0/Assembly#/Assemblies/0/Oem/Google/Components/1"
         name := text "SLOT", model := text "root", type := .connector
         localDevpath := text "/phys:connector:SLOT"
         upstreamConnectorSequence := [], associatedUris := [] }] },
   { name := text "tray", model := text "tray"
     upstreamOdataIds :=
      [text "/redfish/v1/Chassis/0/Assembly#/Assemblies/0/Oem/Google/Components/1",
       text "/redfish/v1/Chassis/1/Assembly#/Assemblies/0/Oem/Google/Components/0"]
     components :=
      [{ odataId := text "/redfish/v1/Chassis/1/Assembly#/Assemblies/0/Oem/Google/Components/0"
         name := text "tray", model := text "tray", type := .board
         localDevpath := text "/phys/SLOT"
         upstreamConnectorSequence := text "/SLOT", associatedUris := [] }] }]

/-- The search for an ancestor of the slot ends, and so does one in a topology of resources. -/
theorem getReplaceableDevpath_finds_slot :
    (∃ topology,
      createNodeTopologyFromAssemblies (.listed _) (fun _ _ => none) trayInItself = some topology ∧
      topology.FindsReplaceable (text "/phys:connector:SLOT") (fun _ _ => none)) ∧
    ∃ bound topology,
      createTopologyFromRedfishV2 enclosedInEachOther
        ⟨⟨some (text "PoweredBy"), false⟩, .empty, []⟩ bound = some topology ∧
      topology.FindsReplaceable (text "/phys") (fun _ _ => none) := by
  have created : ∃ topology,
      createNodeTopologyFromAssemblies (.listed _) (fun _ _ => none) trayInItself = some topology ∧
      topology.devpathToNodeMap.lookup (text "/phys:connector:SLOT") = some 1 ∧
      topology.nodeToParents.listAt 1 = [0] ∧ topology.nodeToParents.listAt 0 = [] ∧
      topology.addresses = [0, 1, 2] :=
    ⟨_, rfl, by decide +kernel, by decide +kernel, by decide +kernel, by decide +kernel⟩
  rcases created with ⟨topology, created, known, ofSlot, ofRoot, addresses⟩
  constructor
  · refine ⟨topology, created, ((getReplaceableDevpath_finds_iff topology _ _
      fun _ _ => rfl).1 _ _ trayInItself created).mpr ?_⟩
    intro start same
    rw [known] at same
    cases same
    have above : ∀ ancestor, Relation.TransGen topology.HasParent 1 ancestor -> ancestor = 0 := by
      intro ancestor reached
      induction reached with
      | single link =>
        unfold NodeTopology.HasParent at link
        rw [ofSlot] at link
        exact List.mem_singleton.mp link
      | tail _ link ih =>
        subst ih
        unfold NodeTopology.HasParent at link
        rw [ofRoot] at link
        cases link
    constructor
    · intro ancestor reached
      rw [addresses]
      rcases Relation.reflTransGen_iff_eq_or_transGen.mp reached with rfl | reached
      · decide
      · rw [above ancestor reached]
        decide
    · rintro ⟨node, reached, cycle⟩
      have isRoot := above node (.trans_right reached cycle)
      subst isRoot
      rcases Relation.TransGen.head'_iff.mp cycle with ⟨parent, link, _⟩
      unfold NodeTopology.HasParent at link
      rw [ofRoot] at link
      cases link
  · have built : ∃ bound topology,
        createTopologyFromRedfishV2 enclosedInEachOther
          ⟨⟨some (text "PoweredBy"), false⟩, .empty, []⟩ bound = some topology :=
      ⟨8, _, rfl⟩
    rcases built with ⟨bound, topology, built⟩
    exact ⟨bound, topology, built, (getReplaceableDevpath_finds_iff topology _ _
      fun _ _ => rfl).2 _ _ enclosedInEachOther _ bound built⟩

/-- The search for an ancestor of the tray does not end. -/
theorem getReplaceableDevpath_tray_in_itself :
    ¬ ∀ (order : IterationOrder (NodePtr × List Text))
        (uninitialised : AssemblyState -> Assembly -> Option NodePtr)
        (assemblies : List Assembly) (topology : NodeTopology) (devpath : Text)
        (alternateResolver : NodeTopology -> Text -> Option Text),
      createNodeTopologyFromAssemblies order uninitialised assemblies = some topology ->
      topology.NoAlternate devpath alternateResolver ->
      topology.FindsReplaceable devpath alternateResolver := by
  intro always
  have created : ∃ topology,
      createNodeTopologyFromAssemblies (.listed _) (fun _ _ => none) trayInItself = some topology ∧
      topology.devpathToNodeMap.lookup (text "/phys/SLOT") = some 2 ∧
      topology.nodeToParents.listAt 2 = [1, 2] :=
    ⟨_, rfl, by decide +kernel, by decide +kernel⟩
  rcases created with ⟨topology, created, known, parents⟩
  have none_ := noneReplaceable_of_noneOf (createNodeTopologyFromAssemblies_noneOf created)
    (text "/phys/SLOT")
  have noAlternate : topology.NoAlternate (text "/phys/SLOT") (fun _ _ => none) := fun _ _ => rfl
  have finds := always _ _ trayInItself topology (text "/phys/SLOT") (fun _ _ => none) created
    noAlternate
  have straight := (findsReplaceable_iff_of_noneReplaceable noAlternate known none_).mp finds
  apply straight.2
  refine ⟨2, .refl, .single ?_⟩
  unfold NodeTopology.HasParent
  rw [parents]
  exact List.mem_cons_of_mem 1 (.head _)

end Ecclesia.Topology
