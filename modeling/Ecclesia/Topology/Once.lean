import Ecclesia.Topology.Tree

namespace Ecclesia.Topology

open List Option Nat
open Relation (ReflTransGen)

/-!
# Resources that are attached once

The map of URIs mirrors the URIs that the nodes have, whatever is attached.  That a URI
stands there once rests on the visited set.  The root chassis and the Google service root are
queued without being entered there, and a cable is entered under the URI with which it is
fetched.  Away from the URIs of these resources, what is queued is visited and distinct, and
what is attached is visited and no longer queued.
-/

namespace NodeTopology

/-- The associated URIs of the node at an address. -/
def urisAt (topology : NodeTopology) (node : NodePtr) : List Text :=
  ((topology.nodes.lookup node).map Node.associatedUris).getD []

/-- Every URI of the map has one node, which is the only one that it is associated with, and
that once. -/
def AttachedOnce (topology : NodeTopology) : Prop :=
  ∀ uri ∈ topology.uriToAssociatedNodeMap.keys,
    ∃ node, topology.uriToAssociatedNodeMap.listAt uri = [node] ∧
      ∀ other, (topology.urisAt other).count uri = if other = node then 1 else 0

/-- The map has a node as often under a URI as the node has this URI. -/
structure Mirrored (topology : NodeTopology) : Prop where
  numbered : topology.addresses = List.range topology.nodes.length
  counts : ∀ uri node, (topology.uriToAssociatedNodeMap.listAt uri).count node =
    (topology.urisAt node).count uri
  nonempty : ∀ uri ∈ topology.uriToAssociatedNodeMap.keys,
    topology.uriToAssociatedNodeMap.listAt uri ≠ []

lemma mirrored_empty : empty.Mirrored where
  numbered := rfl
  counts _ _ := rfl
  nonempty _ member := absurd member not_mem_nil

variable {topology : NodeTopology}

lemma Mirrored.attachedOnce_iff (mirrored : topology.Mirrored) :
    topology.AttachedOnce ↔ ∀ uri, (topology.uriToAssociatedNodeMap.listAt uri).length <= 1 := by
  constructor
  · intro once uri
    by_cases isKey : uri ∈ topology.uriToAssociatedNodeMap.keys
    · rcases once uri isKey with ⟨node, only, _⟩
      rw [only]
      exact Nat.le_refl 1
    · cases listed : topology.uriToAssociatedNodeMap.listAt uri with
      | nil => exact Nat.zero_le 1
      | cons node rest =>
        apply absurd _ isKey
        apply @HashMap.mem_keys_of_mem_listAt _ _ _ _ _ _ node
        rw [listed]
        exact (.head _)
  · intro short uri isKey
    cases listed : topology.uriToAssociatedNodeMap.listAt uri with
    | nil => exact absurd listed (mirrored.nonempty uri isKey)
    | cons node rest =>
      have few := short uri
      rw [listed] at few
      have none : rest = [] := length_eq_zero_iff.mp (le_zero.mp (le_of_succ_le_succ few))
      subst none
      refine ⟨node, rfl, ?_⟩
      intro other
      rw [<- mirrored.counts, listed]
      by_cases same : other = node
      · simp [same]
      · simp [same, Ne.symm same]

/-! ## A URI that is entered -/

lemma lookup_fresh (numbered : topology.addresses = List.range topology.nodes.length) :
    topology.nodes.lookup topology.nodes.length = none := by
  rw [<- not_isSome_iff_eq_none]
  intro present
  have owned : topology.nodes.length ∈ topology.addresses := lookup_isSome_iff.mp present
  rw [numbered, mem_range] at owned
  exact Nat.lt_irrefl _ owned

lemma urisAt_addNode (numbered : topology.addresses = List.range topology.nodes.length)
    {currentUri : Text} {node : Node} (associated : node.associatedUris = [currentUri])
    (other : NodePtr) (uri : Text) :
    ((topology.addNode currentUri node).urisAt other).count uri =
      (topology.urisAt other).count uri +
        if uri = currentUri ∧ topology.nodes.length = other then 1 else 0 := by
  unfold urisAt addNode
  simp only [lookup_append]
  by_cases isNew : other = topology.nodes.length
  · subst isNew
    by_cases sameUri : uri = currentUri
    · simp [lookup_fresh numbered, associated, sameUri]
    · simp [lookup_fresh numbered, associated, sameUri, Ne.symm sameUri]
  · simp [Ne.symm isNew, lookup_cons, beq_false_of_ne isNew]

lemma urisAt_associate {node : NodePtr} (owned : node ∈ topology.addresses) (currentUri : Text)
    (other : NodePtr) (uri : Text) :
    ((topology.associate node currentUri).urisAt other).count uri =
      (topology.urisAt other).count uri +
        if uri = currentUri ∧ node = other then 1 else 0 := by
  unfold urisAt associate
  simp only [lookup_updateNode]
  by_cases same : other = node
  · subst same
    rcases isSome_iff_exists.mp (lookup_isSome_iff.mpr owned) with ⟨found, isFound⟩
    by_cases sameUri : uri = currentUri
    · simp [isFound, sameUri]
    · simp [isFound, sameUri, Ne.symm sameUri]
  · simp [same, Ne.symm same]

lemma Mirrored.enter {after : NodeTopology} (mirrored : topology.Mirrored) {currentUri : Text}
    {current : NodePtr} (numbered : after.addresses = List.range after.nodes.length)
    (entered : after.uriToAssociatedNodeMap =
      topology.uriToAssociatedNodeMap.pushBack currentUri current)
    (counts : ∀ other uri, (after.urisAt other).count uri =
      (topology.urisAt other).count uri + if uri = currentUri ∧ current = other then 1 else 0) :
    after.Mirrored := by
  refine ⟨numbered, ?_, ?_⟩
  · intro uri node
    rw [entered, count_listAt_pushBack, counts, mirrored.counts]
  · intro uri isKey
    rw [entered] at isKey ⊢
    rw [HashMap.listAt_pushBack]
    by_cases same : uri = currentUri
    · simp [same]
    · rw [if_neg (by simpa using same)]
      rcases (HashMap.mem_keys_pushBack _ _ _ _).mp isKey with isCurrent | before
      · exact absurd isCurrent same
      · exact mirrored.nonempty uri before

end NodeTopology

section

variable {Object Iterable : Type} {graph : RedfishGraph Object Iterable} {config : TopologyConfig}

variable {topology after : NodeTopology} {currentUri : Text} {current : NodePtr}
  {toAttach : AttachingNodes Object} {first : List (AttachingNodes Object)}

lemma Attaches.entered
    (attaches : Attaches graph config topology currentUri toAttach current after first) :
    after.uriToAssociatedNodeMap = topology.uriToAssociatedNodeMap.pushBack currentUri current := by
  cases attaches with
  | root => rfl
  | toParent => rfl
  | child => rfl

lemma Attaches.mirrored (mirrored : topology.Mirrored)
    (owned : ∀ parent, toAttach.parent = some parent -> parent < topology.nodes.length)
    (attaches : Attaches graph config topology currentUri toAttach current after first) :
    after.Mirrored := by
  apply mirrored.enter _ attaches.entered
  · cases attaches with
    | root obj node associated => exact NodeTopology.urisAt_addNode mirrored.numbered associated
    | toParent parent obj unlocated =>
      apply NodeTopology.urisAt_associate
      rw [mirrored.numbered, mem_range]
      exact owned _ rfl
    | child parent obj nodeLocation node extension located made associated extended devpath =>
      exact NodeTopology.urisAt_addNode mirrored.numbered associated
  · have added : ∀ node : Node, (topology.addNode currentUri node).addresses =
        List.range (topology.addNode currentUri node).nodes.length := by
      intro node
      rw [NodeTopology.addresses_addNode, NodeTopology.length_addNode, range_succ,
        mirrored.numbered]
    cases attaches with
    | root obj node associated => exact added node
    | toParent parent obj unlocated =>
      rw [NodeTopology.addresses_associate, mirrored.numbered]
      exact congrArg List.range (length_map _).symm
    | child parent obj nodeLocation node extension located made associated extended devpath =>
      exact added node

/-! ## Runs of the loop -/

/-- The loop takes a resource from the queue. -/
def Next (graph : RedfishGraph Object Iterable) (config : TopologyConfig) (bound : Nat)
    (state after : Building Object) : Prop :=
  ∃ toAttach rest, state.queue = toAttach :: rest ∧
    turn graph config (getUpstreamUriToAttachedCableMap graph config) bound toAttach
      { state with queue := rest } = some after

variable {bound : Nat} {state : Building Object}

/-- A turn of the loop leaves the resource out or attaches it. -/
lemma Next.cases {after : Building Object} (next : Next graph config bound state after) :
    ∃ toAttach rest, state.queue = toAttach :: rest ∧
      ((after = { state with queue := rest } ∧
          LeftOut graph config state.topology toAttach) ∨
        Attached graph config toAttach { state with queue := rest } after) := by
  rcases next with ⟨toAttach, rest, queued, ended⟩
  refine ⟨toAttach, rest, queued, ?_⟩
  exact turn_cases (fun upstreamUri uri member => mem_cableUris_of_cableMap member) ended

lemma run_of_attachQueued : ∀ {turns : Nat} {state : Building Object}
    {topology : NodeTopology},
    attachQueued graph config (getUpstreamUriToAttachedCableMap graph config) bound turns state =
        some topology ->
      ∃ final, ReflTransGen (Next graph config bound) state final ∧
        final.queue = [] ∧ final.topology = topology := by
  intro turns
  induction turns with
  | zero =>
    intro state topology ended
    cases ended
  | succ turns ih =>
    intro state topology ended
    rw [attachQueued] at ended
    cases queued : state.queue with
    | nil =>
      rw [queued] at ended
      exact ⟨state, .refl, queued, some.inj ended⟩
    | cons toAttach rest =>
      rw [queued] at ended
      rcases bind_eq_some_iff.mp ended with ⟨after, first, later⟩
      rcases ih later with ⟨final, run, finished, same⟩
      exact ⟨final, .head ⟨toAttach, rest, queued, first⟩ run, finished, same⟩

lemma attachQueued_of_run {turns : Nat} {start : Building Object}
    (ended : attachQueued graph config (getUpstreamUriToAttachedCableMap graph config) bound turns
      start = some topology) (run : ReflTransGen (Next graph config bound) start state) :
    ∃ turns, attachQueued graph config (getUpstreamUriToAttachedCableMap graph config) bound
      turns state = some topology := by
  induction run with
  | refl => exact ⟨turns, ended⟩
  | tail _ next ih =>
    rcases ih with ⟨turnsBefore, endedBefore⟩
    rcases next with ⟨toAttach, rest, queued, taken⟩
    cases turnsBefore with
    | zero => cases endedBefore
    | succ turnsAfter =>
      rw [attachQueued, queued] at endedBefore
      simp only [taken] at endedBefore
      exact ⟨turnsAfter, endedBefore⟩

/-! ## What the visited set keeps apart -/

def urisOf (graph : RedfishGraph Object Iterable) (queue : List (AttachingNodes Object)) :
    List Text :=
  queue.filterMap fun entry => graph.getUriString entry.obj

/-- The URIs of the resources that are queued without a check of their own URI. -/
def uncheckedUris (graph : RedfishGraph Object Iterable) (config : TopologyConfig)
    (root : Object) : List Text :=
  (root :: ((googleServiceRoot graph config).toList ++ misplacedCables graph config)).filterMap
    graph.getUriString

/-- Away from the unchecked URIs, the queue is visited and distinct, and apart from the attached
URIs. -/
structure Apart (graph : RedfishGraph Object Iterable) (unchecked attached : List Text)
    (state : List (AttachingNodes Object) × HashSet Text) : Prop where
  queued : ∀ uri ∈ urisOf graph state.1, uri ∉ unchecked -> uri ∈ state.2.elements
  distinct : ((urisOf graph state.1).filter fun uri => uri ∉ unchecked).Nodup
  attached : ∀ uri ∈ attached, uri ∉ unchecked ->
    uri ∈ state.2.elements ∧ uri ∉ urisOf graph state.1

variable {unchecked attached : List Text}

variable {queue : List (AttachingNodes Object)}

lemma Apart.grows {before after : HashSet Text}
    (apart : Apart graph unchecked attached (queue, before)) (grown : Grows before after) :
    Apart graph unchecked attached (queue, after) where
  queued uri member checked := grown uri (apart.queued uri member checked)
  distinct := apart.distinct
  attached uri member checked :=
    ⟨grown uri (apart.attached uri member checked).1, (apart.attached uri member checked).2⟩

/-- Resources with unchecked URIs do not count. -/
lemma Apart.append_unchecked {queue first : List (AttachingNodes Object)}
    {visited : HashSet Text} (apart : Apart graph unchecked attached (queue, visited))
    (none : ∀ uri ∈ urisOf graph first, uri ∈ unchecked) :
    Apart graph unchecked attached (queue ++ first, visited) := by
  have split : urisOf graph (queue ++ first) = urisOf graph queue ++ urisOf graph first :=
    filterMap_append
  refine ⟨?_, ?_, ?_⟩
  · intro uri member checked
    rw [split] at member
    rcases mem_append.mp member with before | isFirst
    · exact apart.queued uri before checked
    · exact absurd (none uri isFirst) checked
  · have nothing : (urisOf graph first).filter (fun uri => uri ∉ unchecked) = [] := by
      rw [filter_eq_nil_iff]
      intro uri isFirst
      simpa using none uri isFirst
    rw [split, filter_append, nothing, append_nil]
    exact apart.distinct
  · intro uri member checked
    rcases apart.attached uri member checked with ⟨isVisited, gone⟩
    refine ⟨isVisited, ?_⟩
    rw [split, mem_append]
    rintro (before | isFirst)
    · exact gone before
    · exact checked (none uri isFirst)

variable {visited : HashSet Text}

lemma Apart.push (apart : Apart graph unchecked attached (queue, visited)) {obj : Object}
    {uri : Text} (isUri : graph.getUriString obj = some uri) (fresh : uri ∉ visited.elements) :
    Apart graph unchecked attached (queue ++ [⟨some current, obj⟩], visited.insert uri) := by
  have split : urisOf graph (queue ++ [⟨some current, obj⟩]) = urisOf graph queue ++ [uri] := by
    unfold urisOf
    simp [isUri]
  refine ⟨?_, ?_, ?_⟩
  · intro other member checked
    rw [split] at member
    rw [HashSet.mem_insert]
    rcases mem_append.mp member with earlier | isLast
    · exact .inr (apart.queued other earlier checked)
    · exact .inl (mem_singleton.mp isLast)
  · rw [split, filter_append]
    apply Nodup.append apart.distinct ((nodup_singleton uri).filter _)
    intro other earlier isLast
    rcases mem_filter.mp earlier with ⟨inQueue, checked⟩
    rw [mem_singleton.mp (mem_filter.mp isLast).1] at inQueue checked
    exact fresh (apart.queued uri inQueue (by simpa using checked))
  · intro other member checked
    rcases apart.attached other member checked with ⟨isVisited, gone⟩
    refine ⟨HashSet.mem_insert.mpr (.inr isVisited), ?_⟩
    rw [split, mem_append, mem_singleton]
    rintro (earlier | isLast)
    · exact gone earlier
    · rw [isLast] at isVisited
      exact fresh isVisited

lemma Queues.apart (includes : ∀ obj uri, obj ∈ misplacedCables graph config ->
      graph.getUriString obj = some uri -> uri ∈ unchecked)
    {before after : List (AttachingNodes Object) × HashSet Text}
    (queued : ReflTransGen (Queues graph config current) before after)
    (apart : Apart graph unchecked attached before) : Apart graph unchecked attached after := by
  induction queued with
  | refl => exact apart
  | @tail middle last _ step ih =>
    rcases step with ⟨uri, obj, _, own | misplaced, fresh, same⟩
    · subst same
      exact ih.push own fresh
    · subst same
      apply Apart.append_unchecked (ih.grows (grows_insert middle.2 uri))
      intro other member
      rcases mem_filterMap.mp member with ⟨entry, isEntry, isUri⟩
      rw [mem_singleton.mp isEntry] at isUri
      exact includes obj other misplaced isUri

variable {rest : List (AttachingNodes Object)}

section

variable (apart : Apart graph unchecked attached (toAttach :: rest, visited))

include apart

/-- What the queue keeps if its first resource is left out. -/
lemma Apart.drop : Apart graph unchecked attached (rest, visited) := by
  have within : (urisOf graph rest).Sublist (urisOf graph (toAttach :: rest)) :=
    (sublist_cons_self toAttach rest).filterMap _
  refine ⟨?_, apart.distinct.sublist (within.filter _), ?_⟩
  · intro uri member checked
    exact apart.queued uri (within.subset member) checked
  · intro uri member checked
    rcases apart.attached uri member checked with ⟨isVisited, gone⟩
    exact ⟨isVisited, fun later => gone (within.subset later)⟩

/-- What the queue keeps if its first resource is attached. -/
lemma Apart.take {attachedAfter : List Text}
    (isUri : graph.getUriString toAttach.obj = some currentUri)
    (added : ∀ uri ∈ attachedAfter, uri = currentUri ∨ uri ∈ attached) :
    Apart graph unchecked attachedAfter (rest, visited) := by
  have first : urisOf graph (toAttach :: rest) = currentUri :: urisOf graph rest :=
    filterMap_cons_some isUri
  refine ⟨apart.drop.queued, apart.drop.distinct, ?_⟩
  intro uri member checked
  rcases added uri member with rfl | before
  · refine ⟨?_, ?_⟩
    · apply apart.queued uri _ checked
      simp only [first, mem_cons_self]
    · intro later
      have once := apart.distinct
      simp only [first] at once
      rw [filter_cons_of_pos (by simpa using checked)] at once
      apply (nodup_cons.mp once).1
      rw [mem_filter]
      exact ⟨later, by simpa using checked⟩
  · exact apart.drop.attached uri before checked

lemma Apart.not_attached (isUri : graph.getUriString toAttach.obj = some currentUri)
    (checked : currentUri ∉ unchecked) : currentUri ∉ attached := by
  intro before
  apply (apart.attached currentUri before checked).2
  have first : urisOf graph (toAttach :: rest) = currentUri :: urisOf graph rest :=
    filterMap_cons_some isUri
  simp only [first, mem_cons_self]

end

/-! ## What a run keeps -/

/-- What holds between two turns of a run. -/
structure Building.Placed (graph : RedfishGraph Object Iterable) (unchecked : List Text)
    (state : Building Object) : Prop where
  mirrored : state.topology.Mirrored
  owned : ∀ entry ∈ state.queue, ∀ parent, entry.parent = some parent ->
    parent < state.topology.nodes.length
  apart : Apart graph unchecked state.topology.uriToAssociatedNodeMap.keys
    (state.queue, state.visitedUris)

lemma placed_start (graph : RedfishGraph Object Iterable) (config : TopologyConfig)
    (root : Object) : (startBuilding root).Placed graph (uncheckedUris graph config root) := by
  have start : Apart graph (uncheckedUris graph config root) [] ([], .empty) :=
    ⟨forall_mem_nil _, nodup_nil, forall_mem_nil _⟩
  refine ⟨NodeTopology.mirrored_empty, ?_, @Apart.append_unchecked _ _ _ _ _ [] _ _ start ?_⟩
  · intro entry member parent isParent
    rw [mem_singleton.mp member] at isParent
    cases isParent
  · intro uri member
    rcases mem_filterMap.mp member with ⟨entry, isEntry, isUri⟩
    rw [mem_singleton.mp isEntry] at isUri
    exact mem_filterMap.mpr ⟨root, .head _, isUri⟩

lemma Attaches.first_unchecked
    (attaches : Attaches graph config topology currentUri toAttach current after first)
    (root : Object) : ∀ uri ∈ urisOf graph first, uri ∈ uncheckedUris graph config root := by
  intro uri member
  cases attaches with
  | root obj node associated =>
    rcases mem_filterMap.mp member with ⟨entry, isEntry, isUri⟩
    rcases mem_map.mp isEntry with ⟨newRoot, isGoogle, same⟩
    rw [<- same] at isUri
    refine mem_filterMap.mpr ⟨newRoot, ?_, isUri⟩
    exact .tail _ (mem_append_left _ isGoogle)
  | toParent => cases member
  | child => cases member

/-- The topology keeps its nodes, the current one is among them, and what is queued first is
found at it. -/
lemma Attaches.owned
    (owned : ∀ parent, toAttach.parent = some parent -> parent < topology.nodes.length)
    (attaches : Attaches graph config topology currentUri toAttach current after first) :
    topology.nodes.length <= after.nodes.length ∧ current < after.nodes.length ∧
      ∀ entry ∈ first, entry.parent = some current := by
  have added : ∀ node : Node, (topology.addNode currentUri node).nodes.length =
      topology.nodes.length + 1 := NodeTopology.length_addNode topology currentUri
  cases attaches with
  | root obj node associated =>
    rw [added node]
    refine ⟨le_succ _, lt_succ_self _, ?_⟩
    intro entry member
    rcases mem_map.mp member with ⟨newRoot, _, same⟩
    rw [<- same]
  | toParent parent obj unlocated =>
    have length : (topology.associate current currentUri).nodes.length =
        topology.nodes.length := length_map _
    rw [length]
    exact ⟨le_rfl, owned _ rfl, forall_mem_nil _⟩
  | child parent obj nodeLocation node extension located made associated extended devpath =>
    refine ⟨le_of_succ_le (Nat.le_of_eq (added node).symm),
      lt_of_succ_le (Nat.le_of_eq (added node).symm), ?_⟩
    exact forall_mem_nil _

variable {root : Object}

/-- A turn keeps what holds between two turns. -/
lemma Next.placed {after : Building Object} (next : Next graph config bound state after)
    (placed : state.Placed graph (uncheckedUris graph config root)) :
    after.Placed graph (uncheckedUris graph config root) := by
  rcases next.cases with ⟨toAttach, rest, queue, ⟨same, _⟩ | attached⟩
  · have apart := placed.apart
    rw [queue] at apart
    subst same
    refine ⟨placed.mirrored, ?_, apart.drop⟩
    intro entry member
    apply placed.owned entry
    rw [queue]
    exact .tail _ member
  · rcases attached with ⟨currentUri, current, first, visitedUris, isUri, made, grown, queued⟩
    have attaches := attach_cases made
    have apart := placed.apart
    rw [queue] at apart
    have ownedFirst : ∀ parent, toAttach.parent = some parent ->
        parent < state.topology.nodes.length := by
      apply placed.owned
      rw [queue]
      exact (.head _)
    rcases attaches.owned ownedFirst with ⟨more, isNode, atCurrent⟩
    refine ⟨attaches.mirrored placed.mirrored ownedFirst, ?_, ?_⟩
    · intro entry member parent isParent
      rcases Queues.mem_queue queued entry member with before | isCurrent
      · rcases mem_append.mp before with earlier | isFirst
        · apply Nat.lt_of_lt_of_le _ more
          apply placed.owned entry _ parent isParent
          rw [queue]
          exact .tail _ earlier
        · cases (atCurrent entry isFirst).symm.trans isParent
          exact isNode
      · cases isCurrent.symm.trans isParent
        exact isNode
    · have includes : ∀ obj uri, obj ∈ misplacedCables graph config ->
          graph.getUriString obj = some uri -> uri ∈ uncheckedUris graph config root := by
        intro obj uri misplaced isUri
        refine mem_filterMap.mpr ⟨obj, ?_, isUri⟩
        exact .tail _ (mem_append_right _ misplaced)
      apply Queues.apart includes queued
      apply Apart.append_unchecked _ (attaches.first_unchecked root)
      apply Apart.grows _ grown
      apply apart.take isUri
      intro uri member
      rw [attaches.entered] at member
      exact (HashMap.mem_keys_pushBack _ _ _ _).mp member

lemma placed_of_run (run : ReflTransGen (Next graph config bound) (startBuilding root) state) :
    state.Placed graph (uncheckedUris graph config root) := by
  induction run with
  | refl => exact placed_start graph config root
  | tail _ next ih => exact next.placed ih

lemma Next.length_le {after : Building Object} (next : Next graph config bound state after)
    (uri : Text) :
    (state.topology.uriToAssociatedNodeMap.listAt uri).length <=
      (after.topology.uriToAssociatedNodeMap.listAt uri).length := by
  rcases next.cases with ⟨toAttach, rest, _, ⟨same, _⟩ | attached⟩
  · subst same
    exact le_rfl
  · rcases attached with ⟨currentUri, current, first, visitedUris, _, made, _, _⟩
    rw [(attach_cases made).entered, HashMap.listAt_pushBack]
    by_cases isCurrent : uri = currentUri
    · simp [isCurrent]
    · rw [if_neg (by simpa using isCurrent)]

lemma length_le_of_run {final : Building Object}
    (run : ReflTransGen (Next graph config bound) state final) (uri : Text) :
    (state.topology.uriToAssociatedNodeMap.listAt uri).length <=
      (final.topology.uriToAssociatedNodeMap.listAt uri).length := by
  induction run with
  | refl => exact le_rfl
  | tail _ next ih => exact Nat.le_trans ih (next.length_le uri)

/-! ## When the construction attaches a resource once -/

/-- No turn attaches a resource under the URI of the root chassis, the Google service root or a
misplaced cable when there is one already. -/
def NoWayBack (graph : RedfishGraph Object Iterable) (config : TopologyConfig) (bound : Nat)
    (root : Object) : Prop :=
  ∀ state toAttach rest uri,
    Relation.ReflTransGen (Next graph config bound) (startBuilding root) state ->
    state.queue = toAttach :: rest -> graph.getUriString toAttach.obj = some uri ->
    (attach graph config state.topology uri toAttach).isSome ->
    uri ∈ uncheckedUris graph config root ->
    uri ∉ state.topology.uriToAssociatedNodeMap.keys

lemma entered_twice {final : Building Object} {uri : Text} (queue : state.queue = toAttach :: rest)
    (isUri : graph.getUriString toAttach.obj = some uri)
    (attached : (attach graph config state.topology uri toAttach).isSome)
    (before : state.topology.uriToAssociatedNodeMap.listAt uri ≠ [])
    (run : ReflTransGen (Next graph config bound) state final) (finished : final.queue = []) :
    1 < (final.topology.uriToAssociatedNodeMap.listAt uri).length := by
  rcases ReflTransGen.cases_head run with same | ⟨after, next, later⟩
  · rw [same, finished] at queue
    exact absurd queue.symm (cons_ne_nil _ _)
  · apply Nat.lt_of_lt_of_le _ (length_le_of_run later uri)
    rcases next.cases with ⟨taken, others, queued, ⟨_, leftOut⟩ | again⟩
    · cases queue.symm.trans queued
      rw [leftOut uri isUri] at attached
      cases attached
    · cases queue.symm.trans queued
      rcases again with ⟨currentUri, current, first, visitedUris, isCurrent, made, _, _⟩
      cases isUri.symm.trans isCurrent
      rw [(attach_cases made).entered, HashMap.listAt_pushBack, if_pos (beq_self_eq_true _),
        length_append]
      exact succ_lt_succ (length_pos_of_ne_nil before)

lemma NoWayBack.length_le_one (noWayBack : NoWayBack graph config bound root)
    (run : ReflTransGen (Next graph config bound) (startBuilding root) state) :
    ∀ uri, (state.topology.uriToAssociatedNodeMap.listAt uri).length <= 1 := by
  induction run with
  | refl => exact fun uri => Nat.zero_le 1
  | @tail before after run next ih =>
    intro uri
    rcases next.cases with ⟨toAttach, rest, queue, ⟨same, _⟩ | attached⟩
    · subst same
      exact ih uri
    · rcases attached with ⟨currentUri, current, first, visitedUris, isUri, made, _, _⟩
      rw [(attach_cases made).entered, HashMap.listAt_pushBack]
      by_cases isCurrent : uri = currentUri
      · have apart := (placed_of_run run).apart
        rw [queue] at apart
        have fresh : currentUri ∉ before.topology.uriToAssociatedNodeMap.keys := by
          by_cases checked : currentUri ∈ uncheckedUris graph config root
          · exact noWayBack before toAttach rest currentUri run queue isUri
              (isSome_of_eq_some made) checked
          · exact apart.not_attached isUri checked
        have nothing : before.topology.uriToAssociatedNodeMap.listAt currentUri = [] := by
          apply eq_nil_iff_forall_not_mem.mpr
          exact fun node member => fresh (HashMap.mem_keys_of_mem_listAt member)
        simp [isCurrent, nothing]
      · rw [if_neg (by simpa using isCurrent)]
        exact ih uri

end

/-! ## Two chassis that link to each other as contained -/

/-- A service with two chassis, each of which links to the other one as contained in it. -/
def containingEachOther : RedfishGraph Enclosed (List Enclosed) :=
  { enclosedInEachOther with
    property := fun object name =>
      match object with
      | .chassis second =>
        if name = text "@odata.type" then .ofString (text "#Chassis.v1_21_0.Chassis")
        else if name = text "Links" then .ofObject (.links second)
        else .ofStatus (.notFound [])
      | .links second =>
        if name = text "Contains" then .ofIterable [.chassis !second]
        else .ofStatus (.notFound [])
      | .serviceRoot => .ofStatus (.notFound []) }

/-- The first chassis is the root, and chassis have downstream resources that they contain. -/
def containsConfig : TopologyConfig :=
  ⟨⟨some (text "ContainedBy"), false⟩,
    HashMap.empty.assign (text "Chassis") ⟨⟨[], [text "Contains"]⟩, ⟨[], []⟩, ⟨[], [], []⟩⟩, []⟩

/-! ## The result -/

/-- Every URI of the map stands at one node and there once, exactly if no turn leads back to the
root chassis or the Google service root. -/
theorem createTopologyFromRedfishV2_attachedOnce_iff :
    ∀ (Object Iterable : Type) (graph : RedfishGraph Object Iterable)
      (config : TopologyConfig) (bound : Nat) (topology : NodeTopology),
      createTopologyFromRedfishV2 graph config bound = some topology ->
      (topology.AttachedOnce ↔
        ∀ root, findRootNode graph config bound = some (.ok root) ->
          NoWayBack graph config bound root) := by
  intro Object Iterable graph config bound topology created
  unfold createTopologyFromRedfishV2 at created
  cases found : findRootNode graph config bound with
  | none =>
    rw [found] at created
    cases created
  | some result =>
    rw [found] at created
    cases result with
    | error status =>
      cases created
      constructor
      · intro _ root impossible
        cases impossible
      · exact fun _ uri member => absurd member List.not_mem_nil
    | ok root =>
      rcases run_of_attachQueued created with ⟨final, run, _, same⟩
      have mirrored : topology.Mirrored := same ▸ (placed_of_run run).mirrored
      rw [mirrored.attachedOnce_iff]
      constructor
      · intro short other isRoot state toAttach rest uri reached queue isUri attached _ before
        cases isRoot
        -- The turn that leads back enters the URI a second time, and nothing is removed.
        rcases attachQueued_of_run created reached with ⟨turns, ended⟩
        rcases run_of_attachQueued ended with ⟨last, later, finished, sameLast⟩
        have listed := (placed_of_run reached).mirrored.nonempty uri before
        have twice := entered_twice queue isUri attached listed later finished
        rw [sameLast] at twice
        exact absurd (short uri) (Nat.not_le_of_lt twice)
      · intro noWayBack uri
        rw [<- same]
        exact (noWayBack root rfl).length_le_one run uri

/-- The equivalence for the two chassis that link to each other. -/
theorem createTopologyFromRedfishV2_attachedOnce_iff_chassis :
    ∃ topology, createTopologyFromRedfishV2 containingEachOther containsConfig 6 =
        some topology ∧
      (topology.AttachedOnce ↔
        ∀ root, findRootNode containingEachOther containsConfig 6 = some (.ok root) ->
          NoWayBack containingEachOther containsConfig 6 root) := by
  have ends : (createTopologyFromRedfishV2 containingEachOther containsConfig 6).isSome := by
    decide
  rcases Option.isSome_iff_exists.mp ends with ⟨topology, created⟩
  exact ⟨topology, created, createTopologyFromRedfishV2_attachedOnce_iff _ _ _ _ 6 topology created⟩

/-- The root chassis is attached again under the chassis that it contains. -/
theorem root_chassis_attached_again :
    ¬ ∀ (Object Iterable : Type) (graph : RedfishGraph Object Iterable)
      (config : TopologyConfig) (bound : Nat) (topology : NodeTopology),
      createTopologyFromRedfishV2 graph config bound = some topology -> topology.AttachedOnce := by
  intro always
  have entered : (createTopologyFromRedfishV2 containingEachOther containsConfig 6).map
      (fun topology =>
        topology.uriToAssociatedNodeMap.listAt (text "/redfish/v1/Chassis/0")) =
        some [0, 0] := by decide
  rcases Option.map_eq_some_iff.mp entered with ⟨topology, created, listed⟩
  have isKey : text "/redfish/v1/Chassis/0" ∈ topology.uriToAssociatedNodeMap.keys := by
    apply @HashMap.mem_keys_of_mem_listAt _ _ _ _ _ _ 0
    rw [listed]
    exact (.head _)
  rcases always _ _ _ _ _ topology created _ isKey with ⟨node, only, _⟩
  rw [listed] at only
  cases only

end Ecclesia.Topology
