import Ecclesia.Library.Bounded
import Ecclesia.Topology.Resource

namespace Ecclesia.Topology

open List

/-!
# Downstream resources and cables

A resource has downstream resources under its attributes and links.  The links that are
skipped are followed to the downstream resources of their targets, which are marked as
visited on the way; so the recursion is no deeper than there are URIs.

The loops over an index chain never stop, so that they come through all that it matches.
-/

section

variable {Object Iterable : Type} (graph : RedfishGraph Object Iterable)

/-- `obj[kRfPropertyLinks]` -/
def linksOf (object : Object) : RedfishVariant Object Iterable :=
  graph.property object (text "Links")

/-- What a resource has downstream without the links that are skipped. -/
def directDownstreams (resourceConfig : ResourceConfig) (object : Object) : List Object :=
  (resourceConfig.firstClassAttributes.arrayAttributes.flatMap fun name =>
      graph.matched [.each] (graph.property object name)) ++
    (resourceConfig.firstClassAttributes.collectionAttributes.flatMap fun name =>
      graph.matched [.each] (graph.indexName (graph.property object name) (text "Members"))) ++
    (resourceConfig.firstClassAttributes.singularAttributes.filterMap fun name =>
      (graph.property object name).object) ++
    (resourceConfig.usableLinks.singularLinks.filterMap fun link =>
      (graph.indexName (linksOf graph object) link).object) ++
    (resourceConfig.usableLinks.arrayLinks.flatMap fun link =>
      graph.matched [.each] (graph.indexName (linksOf graph object) link))

def skippedLinks (resourceConfig : ResourceConfig) (object : Object) : List Object :=
  resourceConfig.usableLinksSkip.arrayLinks.flatMap fun link =>
    graph.matched [.each] (graph.indexName (linksOf graph object) link)

/-- `FindAllDownstreamsUris`, with a bound on the depth of its recursion. -/
def findAllDownstreamsUris (config : TopologyConfig) :
    Nat -> Object -> HashSet Text -> Option (List Object × HashSet Text)
  | 0, _, _ => none
  | bound + 1, object, visitedUri =>
    match getResourceTypeAndVersionForObject graph object with
    | none => some ([], visitedUri)
    | some typeAndVersion =>
      let resourceConfig := getResourceConfigFromResourceTypeAndVersion typeAndVersion config
      (skippedLinks graph resourceConfig object).foldlM (fun found target =>
          match graph.getUriString target with
          | none => some found
          | some skipUri =>
            if skipUri ∈ found.2.elements then some found
            else
              (findAllDownstreamsUris config bound target (found.2.insert skipUri)).map
                fun nextLevel => (found.1 ++ nextLevel.1, nextLevel.2))
        (directDownstreams graph resourceConfig object, visitedUri)

/-- The upstream resource of a cable: the one at the last of the links that lead to one. -/
def upstreamUriOfCable (upstreamLinks : List Text) (cableLinks : Object) : Option Text :=
  upstreamLinks.foldl (fun upstreamUri link =>
      match (graph.indexPosition (graph.property cableLinks link) 0).object with
      | some upstream => graph.getUriString upstream
      | none =>
        match (graph.property cableLinks link).object with
        | some upstream => graph.getUriString upstream
        | none => upstreamUri)
    none

/-- `FindAllCablesHelper`: the cables with an upstream resource and a part location. -/
def findAllCables (config : TopologyConfig) : List (Object × Text) :=
  (graph.matched [.each] (graph.indexName (graph.getRoot {} .redfish) (text "Cables"))).filterMap
    fun cable =>
      match (linksOf graph cable).object with
      | none => none
      | some cableLinks =>
        match upstreamUriOfCable graph config.upstreamLinks cableLinks with
        | none => none
        | some upstreamUri =>
          (graph.indexName (graph.property cable (text "Location"))
              (text "PartLocation")).object.map fun _ => (cable, upstreamUri)

def getUpstreamUriToAttachedCableMap (config : TopologyConfig) : HashMap Text (List Text) :=
  (findAllCables graph config).foldl (fun uriToCableUri cable =>
      match graph.getUriString cable.1 with
      | none => uriToCableUri
      | some uri => uriToCableUri.pushBack cable.2 uri)
    .empty

/-- How many URIs have not been visited. -/
def unvisited (visited : HashSet Text) : Nat :=
  (graph.uris.filter fun uri => uri ∉ visited.elements).length

end

/-- Everything that has been visited stays so. -/
def Grows (before after : HashSet Text) : Prop :=
  ∀ uri ∈ before.elements, uri ∈ after.elements

variable {Object Iterable : Type} {graph : RedfishGraph Object Iterable}

lemma unvisited_mono {before after : HashSet Text} (grows : Grows before after) :
    unvisited graph after <= unvisited graph before := by
  apply Sublist.length_le
  apply monotone_filter_right
  intro uri
  simp only [decide_eq_true_eq]
  exact fun later earlier => later (grows uri earlier)

lemma grows_insert (visited : HashSet Text) (uri : Text) : Grows visited (visited.insert uri) :=
  fun _ before => HashSet.mem_insert.mpr (.inr before)

lemma unvisited_insert_lt {visited : HashSet Text} {uri : Text} (isUri : uri ∈ graph.uris)
    (fresh : uri ∉ visited.elements) :
    unvisited graph (visited.insert uri) < unvisited graph visited := by
  have within : (graph.uris.filter fun other => other ∉ (visited.insert uri).elements).Sublist
      ((graph.uris.filter fun other => other ∉ visited.elements).filter (· ≠ uri)) := by
    rw [filter_filter]
    apply monotone_filter_right
    intro other
    simp only [HashSet.mem_insert, not_or, Bool.and_eq_true, decide_eq_true_eq]
    exact id
  apply Nat.lt_of_le_of_lt within.length_le
  apply length_filter_lt_length_iff_exists.mpr
  refine ⟨uri, ?_, by simp⟩
  rw [mem_filter]
  exact ⟨isUri, by simpa using fresh⟩

/-- The recursion ends if the bound exceeds the number of URIs not visited, and visits only more. -/
lemma findAllDownstreamsUris_ends (config : TopologyConfig) : ∀ (bound : Nat)
    (object : Object) (visited : HashSet Text), unvisited graph visited < bound ->
    ∃ found after, findAllDownstreamsUris graph config bound object visited =
      some (found, after) ∧ Grows visited after := by
  intro bound
  induction bound with
  | zero => exact fun object visited impossible => absurd impossible (Nat.not_lt_zero _)
  | succ bound ih =>
    intro object visited enough
    rw [findAllDownstreamsUris]
    cases getResourceTypeAndVersionForObject graph object with
    | none => exact ⟨[], visited, rfl, fun _ => id⟩
    | some typeAndVersion =>
      simp only
      generalize getResourceConfigFromResourceTypeAndVersion typeAndVersion config = resourceConfig
      generalize directDownstreams graph resourceConfig object = start
      -- Between two targets the visited set has only grown.
      have loop : ∀ (targets : List Object) (found : List Object) (state : HashSet Text),
          Grows visited state ->
          ∃ last after, targets.foldlM (fun found target =>
              match graph.getUriString target with
              | none => some found
              | some skipUri =>
                if skipUri ∈ found.2.elements then some found
                else
                  (findAllDownstreamsUris graph config bound target
                    (found.2.insert skipUri)).map fun nextLevel =>
                      (found.1 ++ nextLevel.1, nextLevel.2))
            (found, state) = some (last, after) ∧ Grows visited after := by
        intro targets
        induction targets with
        | nil => exact fun found state grows => ⟨found, state, rfl, grows⟩
        | cons target rest ihRest =>
          intro found state grows
          rw [foldlM_cons]
          cases isUri : graph.getUriString target with
          | none => exact ihRest found state grows
          | some skipUri =>
            by_cases present : skipUri ∈ state.elements
            · simp only [if_pos present]
              exact ihRest found state grows
            · have fewer := unvisited_insert_lt (graph.complete target skipUri isUri) present
              have notMore : unvisited graph state <= unvisited graph visited := unvisited_mono grows
              rcases ih target (state.insert skipUri) (by omega) with ⟨next, after, ended, grown⟩
              simp only [if_neg present, ended]
              exact ihRest _ after fun uri before =>
                grown uri (grows_insert state skipUri uri (grows uri before))
      exact loop _ start visited fun _ => id

/-- A loop whose turns still end as they did ends as it did. -/
lemma foldlM_some_mono {State Item : Type} {step other : State -> Item -> Option State}
    (same : ∀ state item after, step state item = some after -> other state item = some after) :
    ∀ (items : List Item) (state after : State), items.foldlM step state = some after ->
      items.foldlM other state = some after := by
  intro items
  induction items with
  | nil => exact fun state after ended => ended
  | cons item rest ih =>
    intro state after ended
    rcases Option.bind_eq_some_iff.mp ended with ⟨next, first, later⟩
    exact Option.bind_eq_some_iff.mpr ⟨next, same state item next first, ih next after later⟩

/-- A larger bound changes nothing once the recursion ends. -/
lemma findAllDownstreamsUris_mono {config : TopologyConfig} {bound more : Nat} {object : Object}
    {visited : HashSet Text} {result : List Object × HashSet Text} (enough : bound <= more)
    (ended : findAllDownstreamsUris graph config bound object visited = some result) :
    findAllDownstreamsUris graph config more object visited = some result := by
  induction bound generalizing more object visited result with
  | zero => cases ended
  | succ bound ih =>
    rcases Nat.exists_eq_succ_of_ne_zero (Nat.ne_zero_of_lt enough) with ⟨more, rfl⟩
    rw [findAllDownstreamsUris] at ended ⊢
    cases typed : getResourceTypeAndVersionForObject graph object with
    | none =>
      rw [typed] at ended
      exact ended
    | some typeAndVersion =>
      rw [typed] at ended
      apply foldlM_some_mono _ _ _ _ ended
      intro found target after first
      cases isUri : graph.getUriString target with
      | none =>
        rw [isUri] at first
        exact first
      | some skipUri =>
        rw [isUri] at first
        simp only at first ⊢
        by_cases present : skipUri ∈ found.2.elements
        · rw [if_pos present] at first ⊢
          exact first
        · rw [if_neg present] at first ⊢
          rcases Option.map_eq_some_iff.mp first with ⟨nextLevel, deeper, same⟩
          rw [ih (Nat.le_of_succ_le_succ enough) deeper, Option.map_some, same]

lemma findAllDownstreamsUris_grows {config : TopologyConfig} {bound : Nat} {object : Object}
    {visited after : HashSet Text} {found : List Object}
    (ended : findAllDownstreamsUris graph config bound object visited = some (found, after)) :
    Grows visited after := by
  have enough : unvisited graph visited < max bound (unvisited graph visited + 1) :=
    Nat.lt_of_lt_of_le (Nat.lt_succ_self _) (Nat.le_max_right _ _)
  rcases findAllDownstreamsUris_ends config _ object visited enough with ⟨_, _, same, grows⟩
  cases (findAllDownstreamsUris_mono (Nat.le_max_left _ _) ended).symm.trans same
  exact grows

end Ecclesia.Topology
