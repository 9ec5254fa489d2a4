import Ecclesia.Topology.BreadthFirst

namespace Ecclesia.Topology

open List

/-!
# What a turn does

A turn leaves a resource out, or attaches it and queues resources at the node it has been
attached to.  Queuing one resource is a step of its own: everything that holds of one such
step holds of the two loops that queue.
-/

variable {Object Iterable : Type} {graph : RedfishGraph Object Iterable} {config : TopologyConfig}

/-- The URIs under which cables are fetched. -/
def cableUris (graph : RedfishGraph Object Iterable) (config : TopologyConfig) : List Text :=
  (findAllCables graph config).filterMap fun cable => graph.getUriString cable.1

/-- The cables that have another URI than the one under which they are fetched. -/
def misplacedCables (graph : RedfishGraph Object Iterable) (config : TopologyConfig) :
    List Object :=
  (cableUris graph config).filterMap fun cableUri =>
    ((graph.cachedGetUri cableUri {}).object).filter fun cableObj =>
      graph.getUriString cableObj ≠ some cableUri

/-- A resource is queued at a node under a URI that has not been visited, its own or that of a
cable. -/
def Queues (graph : RedfishGraph Object Iterable) (config : TopologyConfig) (current : NodePtr)
    (before after : List (AttachingNodes Object) × HashSet Text) : Prop :=
  ∃ uri obj, uri ∈ graph.uris ∧
    (graph.getUriString obj = some uri ∨ obj ∈ misplacedCables graph config) ∧
    uri ∉ before.2.elements ∧
    after = (before.1 ++ [⟨some current, obj⟩], before.2.insert uri)

variable {current : NodePtr} {uri : Text}

lemma pushUnlessVisited_queues {obj : Object} (isUri : uri ∈ graph.uris)
    (placed : graph.getUriString obj = some uri ∨ obj ∈ misplacedCables graph config)
    (state : List (AttachingNodes Object) × HashSet Text) :
    Relation.ReflTransGen (Queues graph config current) state
      (pushUnlessVisited current uri obj state) := by
  unfold pushUnlessVisited
  by_cases visited : uri ∈ state.2.elements
  · rw [if_pos visited]
  · rw [if_neg visited]
    exact .single ⟨uri, obj, isUri, placed, visited, rfl⟩

lemma pushDownstreams_queues (current : NodePtr) (downstreamObjs : List Object)
    (state : List (AttachingNodes Object) × HashSet Text) :
    Relation.ReflTransGen (Queues graph config current) state
      (pushDownstreams graph current downstreamObjs state) := by
  unfold pushDownstreams
  induction downstreamObjs generalizing state with
  | nil => exact .refl
  | cons obj rest ih =>
    rw [foldl_cons]
    refine .trans ?_ (ih _)
    cases isUri : graph.getUriString obj with
    | none => exact .refl
    | some uri =>
      exact pushUnlessVisited_queues (graph.complete obj uri isUri) (.inl isUri) state

lemma cableUri_mem_uris (isCable : uri ∈ cableUris graph config) : uri ∈ graph.uris := by
  rcases mem_filterMap.mp isCable with ⟨cable, _, isUri⟩
  exact graph.complete cable.1 uri isUri

lemma fetched_cable {cableObj : Object} (isCable : uri ∈ cableUris graph config)
    (found : (graph.cachedGetUri uri {}).object = some cableObj) :
    graph.getUriString cableObj = some uri ∨ cableObj ∈ misplacedCables graph config := by
  by_cases own : graph.getUriString cableObj = some uri
  · exact .inl own
  · refine .inr (mem_filterMap.mpr ⟨uri, isCable, ?_⟩)
    rw [found]
    simpa [Option.filter] using own

lemma pushCables_queues (current : NodePtr) {uris : List Text}
    (areCables : ∀ uri ∈ uris, uri ∈ cableUris graph config)
    (state : List (AttachingNodes Object) × HashSet Text) :
    Relation.ReflTransGen (Queues graph config current) state
      (pushCables graph current uris state) := by
  unfold pushCables
  induction uris generalizing state with
  | nil => exact .refl
  | cons cableUri rest ih =>
    rw [foldl_cons]
    refine .trans ?_ (ih (fun uri member => areCables uri (.tail _ member)) _)
    have isCable := areCables cableUri (.head _)
    cases found : (graph.cachedGetUri cableUri {}).object with
    | none => exact .refl
    | some cableObj =>
      simp only
      by_cases empty : cableUri = []
      · rw [if_pos empty]
      · rw [if_neg empty]
        exact pushUnlessVisited_queues (cableUri_mem_uris isCable)
          (fetched_cable isCable found) state

lemma mem_cableUris_of_cableMap {upstreamUri : Text}
    (member : uri ∈ (getUpstreamUriToAttachedCableMap graph config).listAt upstreamUri) :
    uri ∈ cableUris graph config := by
  have within : ∀ {step : HashMap Text (List Text) -> Object × Text -> HashMap Text (List Text)},
      (∀ map cable, uri ∈ (step map cable).listAt upstreamUri ->
        uri ∈ map.listAt upstreamUri ∨ graph.getUriString cable.1 = some uri) ->
      ∀ (cables : List (Object × Text)) (map : HashMap Text (List Text)),
        uri ∈ (cables.foldl step map).listAt upstreamUri -> uri ∈ map.listAt upstreamUri ∨
          uri ∈ cables.filterMap fun cable => graph.getUriString cable.1 := by
    intro step once cables
    induction cables with
    | nil => exact fun map before => .inl before
    | cons cable rest ih =>
      intro map entered
      rcases ih _ entered with earlier | later
      · rcases once map cable earlier with before | isUri
        · exact .inl before
        · exact .inr (mem_filterMap.mpr ⟨cable, .head _, isUri⟩)
      · rcases mem_filterMap.mp later with ⟨other, inRest, isUri⟩
        exact .inr (mem_filterMap.mpr ⟨other, .tail _ inRest, isUri⟩)
  refine (within ?_ _ .empty member).resolve_left not_mem_nil
  intro map cable entered
  cases isUri : graph.getUriString cable.1 with
  | none =>
    simp only [isUri] at entered
    exact .inl entered
  | some cableUri =>
    simp only [isUri] at entered
    rcases mem_listAt_pushBack entered with same | before
    · exact .inr (same ▸ rfl)
    · exact .inl before

/-- How many turns are left at most, if everything in the queue has a parent. -/
def remaining (graph : RedfishGraph Object Iterable)
    (state : List (AttachingNodes Object) × HashSet Text) : Nat :=
  state.1.length + unvisited graph state.2

lemma remaining_cons (entry : AttachingNodes Object) (rest : List (AttachingNodes Object))
    (visited : HashSet Text) :
    remaining graph (entry :: rest, visited) = remaining graph (rest, visited) + 1 :=
  Nat.add_right_comm _ _ _

variable {before after : List (AttachingNodes Object) × HashSet Text}

section

variable (queued : Relation.ReflTransGen (Queues graph config current) before after)

include queued

lemma Queues.remaining_le : remaining graph after <= remaining graph before := by
  induction queued with
  | refl => exact le_rfl
  | tail _ step ih =>
    rcases step with ⟨uri, obj, isUri, _, fresh, same⟩
    have fewer := unvisited_insert_lt isUri fresh
    subst same
    unfold remaining at *
    simp only [length_append, length_singleton]
    omega

/-- What has been queued since is at the node. -/
lemma Queues.mem_queue : ∀ entry ∈ after.1, entry ∈ before.1 ∨ entry.parent = some current := by
  induction queued with
  | refl => exact fun entry member => .inl member
  | tail _ step ih =>
    rcases step with ⟨uri, obj, _, _, _, same⟩
    subst same
    intro entry member
    rcases mem_append.mp member with earlier | last
    · exact ih entry earlier
    · rw [mem_singleton.mp last]
      exact .inr rfl

end

/-- A node for a resource extends the devpath of the parent and is associated with the
resource's URI alone. -/
lemma childNode_spec {object nodeLocation : Object} {currentUri parentDevpath : Text} {node : Node}
    (made : childNode graph object nodeLocation currentUri parentDevpath = some node) :
    node.associatedUris = [currentUri] ∧
      ∃ extension, extension ≠ [] ∧ node.localDevpath = parentDevpath ++ extension := by
  unfold childNode at made
  split at made
  · cases made
  · split at made
    · cases made
    · cases made
    · rename_i name _ _
      simp only at made
      split at made
      · cases made
        refine ⟨rfl, text ":device:" ++ name, ?_, rfl⟩
        exact append_ne_nil_of_left_ne_nil (by decide) _
      · split at made
        · rcases Option.map_eq_some_iff.mp made with ⟨label, _, same⟩
          cases same
          refine ⟨rfl, text "/" ++ label, ?_, rfl⟩
          exact append_ne_nil_of_left_ne_nil (by decide) _
        · cases made

/-- The changes that a turn makes before it queues downstream resources. -/
inductive Attaches (graph : RedfishGraph Object Iterable) (config : TopologyConfig)
    (topology : NodeTopology) (currentUri : Text) :
    AttachingNodes Object -> NodePtr -> NodeTopology -> List (AttachingNodes Object) -> Prop where
  | root (obj : Object) (node : Node) (associated : node.associatedUris = [currentUri]) :
      Attaches graph config topology currentUri ⟨none, obj⟩ topology.nodes.length
        (topology.addNode currentUri node)
        ((googleServiceRoot graph config).toList.map fun newRoot =>
          ⟨some topology.nodes.length, newRoot⟩)
  | toParent (parent : NodePtr) (obj : Object) (unlocated : partLocationOf graph obj = none) :
      Attaches graph config topology currentUri ⟨some parent, obj⟩ parent
        (topology.associate parent currentUri) []
  | child (parent : NodePtr) (obj nodeLocation : Object) (node : Node) (extension : Text)
      (located : partLocationOf graph obj = some nodeLocation)
      (made : childNode graph obj nodeLocation currentUri (topology.devpathAt parent) = some node)
      (associated : node.associatedUris = [currentUri]) (extended : extension ≠ [])
      (devpath : node.localDevpath = topology.devpathAt parent ++ extension) :
      Attaches graph config topology currentUri ⟨some parent, obj⟩ topology.nodes.length
        (topology.addChild parent currentUri node) []

variable {toAttach : AttachingNodes Object}

lemma attach_cases {topology after : NodeTopology} {currentUri : Text}
    {first : List (AttachingNodes Object)}
    (attached : attach graph config topology currentUri toAttach = some (current, after, first)) :
    Attaches graph config topology currentUri toAttach current after first := by
  rcases toAttach with ⟨parent, obj⟩
  unfold attach at attached
  cases parent with
  | none =>
    cases attached
    exact .root obj _ rfl
  | some parent =>
    cases located : partLocationOf graph obj with
    | none =>
      simp only [located] at attached
      cases attached
      exact .toParent _ obj located
    | some nodeLocation =>
      simp only [located] at attached
      cases made : childNode graph obj nodeLocation currentUri (topology.devpathAt parent) with
      | none =>
        rw [made] at attached
        cases attached
      | some node =>
        rw [made] at attached
        cases attached
        rcases childNode_spec made with ⟨associated, extension, extended, devpath⟩
        exact .child parent obj nodeLocation node extension located made associated extended devpath

def Attached (graph : RedfishGraph Object Iterable) (config : TopologyConfig)
    (toAttach : AttachingNodes Object) (state after : Building Object) : Prop :=
  ∃ currentUri current first visitedUris,
    graph.getUriString toAttach.obj = some currentUri ∧
      attach graph config state.topology currentUri toAttach =
        some (current, after.topology, first) ∧
      Grows state.visitedUris visitedUris ∧
      Relation.ReflTransGen (Queues graph config current) (state.queue ++ first, visitedUris)
        (after.queue, after.visitedUris)

/-- A resource that a turn leaves out. -/
def LeftOut (graph : RedfishGraph Object Iterable) (config : TopologyConfig)
    (topology : NodeTopology) (toAttach : AttachingNodes Object) : Prop :=
  ∀ currentUri, graph.getUriString toAttach.obj = some currentUri ->
    attach graph config topology currentUri toAttach = none

lemma turn_cases {bound : Nat} {state after : Building Object} {cableMap : HashMap Text (List Text)}
    (areCables : ∀ upstreamUri uri, uri ∈ cableMap.listAt upstreamUri ->
      uri ∈ cableUris graph config)
    (ended : turn graph config cableMap bound toAttach state = some after) :
    (after = state ∧ LeftOut graph config state.topology toAttach) ∨
      Attached graph config toAttach state after := by
  unfold turn at ended
  cases isUri : graph.getUriString toAttach.obj with
  | none =>
    rw [isUri] at ended
    cases ended
    refine .inl ⟨rfl, ?_⟩
    intro currentUri isCurrent
    exact absurd (isCurrent.symm.trans isUri) (Option.some_ne_none _)
  | some currentUri =>
    simp only [isUri] at ended
    cases attached : attach graph config state.topology currentUri toAttach with
    | none =>
      rw [attached] at ended
      cases ended
      refine .inl ⟨rfl, ?_⟩
      intro other isOther
      cases isUri.symm.trans isOther
      exact attached
    | some result =>
      rcases result with ⟨current, topology, first⟩
      simp only [attached] at ended
      cases found : findAllDownstreamsUris graph config bound toAttach.obj state.visitedUris with
      | none =>
        rw [found] at ended
        cases ended
      | some downstreams =>
        rcases downstreams with ⟨downstreamObjs, visitedUris⟩
        rw [found] at ended
        cases ended
        exact .inr ⟨currentUri, current, first, visitedUris, isUri, attached,
          findAllDownstreamsUris_grows found,
          .trans (pushDownstreams_queues current downstreamObjs _)
            (pushCables_queues _ (areCables currentUri) _)⟩

lemma turn_ends {bound : Nat} {state : Building Object}
    (enough : unvisited graph state.visitedUris < bound) (cableMap : HashMap Text (List Text))
    (toAttach : AttachingNodes Object) :
    ∃ after, turn graph config cableMap bound toAttach state = some after := by
  unfold turn
  cases isUri : graph.getUriString toAttach.obj with
  | none => exact ⟨state, rfl⟩
  | some currentUri =>
    cases attached : attach graph config state.topology currentUri toAttach with
    | none => exact ⟨state, by simp only [attached]⟩
    | some result =>
      rcases findAllDownstreamsUris_ends config bound toAttach.obj state.visitedUris enough with
        ⟨downstreamObjs, visitedUris, ended, _⟩
      simp only [attached, ended]
      exact ⟨_, rfl⟩

end Ecclesia.Topology
