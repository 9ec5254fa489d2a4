import Mathlib.Data.Fintype.Sum
import Mathlib.Tactic.DeriveFintype
import Ecclesia.Library.Chain
import Ecclesia.Topology.Downstream

namespace Ecclesia.Topology

/-!
# The root chassis

The search starts at the first chassis of the collection and follows the link to the chassis
above, or else the cable on which a chassis hangs, to one that has neither.
-/

section

variable {Object Iterable : Type} (graph : RedfishGraph Object Iterable)

def cableDownstreamToUpstreamMap (config : TopologyConfig) : Option (HashMap Text Text) :=
  (findAllCables graph config).foldlM (fun upstreamMap cable =>
      (findAllDownstreamsUris graph config (graph.uris.length + 1) cable.1 .empty).map
        fun downstreams =>
          (downstreams.1.filterMap graph.getUriString).foldl
            (fun upstreamMap downstreamUri => upstreamMap.assign downstreamUri cable.2)
            upstreamMap)
    .empty

/-- The chassis that the search starts from. -/
def firstChassis : StatusOr Object :=
  let chassis := graph.cachedGetUri (text "/redfish/v1/Chassis") { expand := some ⟨.notLinks, 1⟩ }
  if !chassis.status.isOk then .error chassis.status
  else
    match chassis.iterable with
    | none => .error (.internal (text "No Chassis in Chassis collection"))
    | some chassisIter =>
      if graph.size chassisIter = 0 then
        .error (.internal (text "No Chassis in Chassis collection"))
      else
        match ((graph.elements chassisIter).find? fun chassis => chassis.status.isOk).bind
            RedfishVariant.object with
        | none => .error (.internal (text "No valid Chassis in Chassis collection"))
        | some chassisObj =>
          match graph.getUriString chassisObj with
          | none => .error (.internal (text "Chassis obj is not valid from Collection"))
          | some _ => .ok chassisObj

/-- The chassis above one: the one that it links to, or the one at the other end of a cable. -/
def upstreamChassis (chassisLink : Text) (upstreamMap : HashMap Text Text) (chassis : Object) :
    Option Object :=
  match (graph.indexName (linksOf graph chassis) chassisLink).object with
  | some upstream => some upstream
  | none =>
    match graph.getUriString chassis with
    | none => none
    | some chassisUri =>
      match upstreamMap.lookup chassisUri with
      | none => none
      | some upstreamUri => (graph.cachedGetUri upstreamUri {}).object

/-- `FindRootChassisUri`, with a bound on the number of its upstream steps. -/
def findRootChassisUri (config : TopologyConfig) (chassisLink : Text) (bound : Nat) :
    Option (StatusOr Object) :=
  match firstChassis graph with
  | .error status => some (.error status)
  | .ok chassis =>
    match cableDownstreamToUpstreamMap graph config with
    | none => none
    | some upstreamMap =>
      (walkToEnd (upstreamChassis graph chassisLink upstreamMap) bound chassis).map .ok

def findRootNode (config : TopologyConfig) (bound : Nat) : Option (StatusOr Object) :=
  match config.findRootNode.chassisLink with
  | some chassisLink => findRootChassisUri graph config chassisLink bound
  | none => some (.error (.internal (text "finding_root.has_chassis_link was false.")))

/-- One chassis is above another one, by a link or by a cable. -/
def Upstream (config : TopologyConfig) (chassisLink : Text) (chassis upstream : Object) : Prop :=
  ∃ upstreamMap, cableDownstreamToUpstreamMap graph config = some upstreamMap ∧
    upstreamChassis graph chassisLink upstreamMap chassis = some upstream

end

section

variable {Object Iterable : Type} {graph : RedfishGraph Object Iterable}

lemma unvisited_empty_lt : unvisited graph .empty < graph.uris.length + 1 :=
  Nat.lt_succ_of_le (List.length_filter_le _ _)

lemma cableDownstreamToUpstreamMap_ends (config : TopologyConfig) :
    ∃ upstreamMap, cableDownstreamToUpstreamMap graph config = some upstreamMap := by
  unfold cableDownstreamToUpstreamMap
  generalize HashMap.empty = upstreamMap
  induction findAllCables graph config generalizing upstreamMap with
  | nil => exact ⟨upstreamMap, rfl⟩
  | cons cable rest ih =>
    rcases findAllDownstreamsUris_ends config _ cable.1 .empty (@unvisited_empty_lt _ _ graph) with
      ⟨found, after, ended, _⟩
    rw [List.foldlM_cons, ended]
    exact ih _

end

/-- The resources of a service with two chassis. -/
inductive Enclosed where
  | serviceRoot
  | chassis (second : Bool)
  | links (second : Bool)
deriving DecidableEq, Fintype

/-- A service with two chassis, each of which links to the other one as its container. -/
def enclosedInEachOther : RedfishGraph Enclosed (List Enclosed) where
  getRoot _ _ := .ofObject .serviceRoot
  property object name :=
    match object with
    | .chassis second =>
      if name = text "Links" then .ofObject (.links second) else .ofStatus (.notFound [])
    | .links second =>
      if name = text "ContainedBy" then .ofObject (.chassis !second)
      else .ofStatus (.notFound [])
    | .serviceRoot => .ofStatus (.notFound [])
  get _ _ _ := .ofStatus (.notFound [])
  getUriString object :=
    match object with
    | .chassis false => some (text "/redfish/v1/Chassis/0")
    | .chassis true => some (text "/redfish/v1/Chassis/1")
    | _ => none
  size := List.length
  element members index :=
    match members[index]? with
    | some member => .ofObject member
    | none => .ofStatus (.notFound [])
  cachedGetUri uri _ :=
    if uri = text "/redfish/v1/Chassis" then .ofIterable [.chassis false, .chassis true]
    else .ofStatus (.notFound [])
  boolValue _ _ := none
  uris := [text "/redfish/v1/Chassis/0", text "/redfish/v1/Chassis/1"]
  complete := by
    intro object uri isUri
    cases object with
    | serviceRoot => cases isUri
    | links second => cases isUri
    | chassis second =>
      cases second with
      | false => cases isUri; decide
      | true => cases isUri; decide

/-- The search for the root chassis ends exactly if the first chassis leads to no cycle of upstream
links and cables. -/
theorem findRootChassisUri_ends_iff :
    ∀ (Object Iterable : Type) [Finite Object] (graph : RedfishGraph Object Iterable)
      (config : TopologyConfig) (chassisLink : Text),
      (∃ bound result, findRootChassisUri graph config chassisLink bound = some result) ↔
        ∀ chassis, firstChassis graph = .ok chassis ->
          ¬ ReachesCycle (Upstream graph config chassisLink) chassis := by
  intro Object Iterable finite graph config chassisLink
  rcases @cableDownstreamToUpstreamMap_ends _ _ graph config with ⟨upstreamMap, ended⟩
  have above : Upstream graph config chassisLink = fun chassis upstream =>
      upstreamChassis graph chassisLink upstreamMap chassis = some upstream := by
    funext chassis upstream
    unfold Upstream
    rw [ended]
    simp
  rw [above]
  unfold findRootChassisUri
  rw [ended]
  cases firstChassis graph with
  | error status =>
    constructor
    · intro _ chassis impossible
      cases impossible
    · exact fun _ => ⟨0, .error status, rfl⟩
  | ok first =>
    constructor
    · rintro ⟨bound, result, found⟩ chassis same
      cases same
      rcases Option.map_eq_some_iff.mp found with ⟨root, walked, _⟩
      exact (walkToEnd_ends_iff first).mp ⟨bound, root, walked⟩
    · intro straight
      rcases (walkToEnd_ends_iff first).mpr (straight first rfl) with ⟨bound, root, walked⟩
      refine ⟨bound, .ok root, ?_⟩
      simp only [walked, Option.map_some]

/-- Over links that the two chassis do not have the search ends. -/
theorem findRootChassisUri_ends_without_links :
    ∃ bound result, findRootChassisUri enclosedInEachOther
      ⟨⟨some (text "PoweredBy"), false⟩, .empty, []⟩ (text "PoweredBy") bound = some result := by
  apply (findRootChassisUri_ends_iff _ _ enclosedInEachOther _ _).mpr
  rintro chassis _ ⟨node, _, cycle⟩
  rcases Relation.TransGen.head'_iff.mp cycle with ⟨upstream, ⟨upstreamMap, noCables, step⟩, _⟩
  cases noCables
  have top : ∀ object, upstreamChassis enclosedInEachOther (text "PoweredBy") .empty object =
      none := by decide
  exact Option.some_ne_none _ (step.symm.trans (top node))

/-- From one of the two chassis the search never ends. -/
theorem findRootChassisUri_never_ends :
    ¬ ∀ (Object Iterable : Type) [Finite Object] (graph : RedfishGraph Object Iterable)
      (config : TopologyConfig) (chassisLink : Text),
      ∃ bound result, findRootChassisUri graph config chassisLink bound = some result := by
  intro always
  rcases always _ _ enclosedInEachOther ⟨⟨some (text "ContainedBy"), false⟩, .empty, []⟩
    (text "ContainedBy") with ⟨bound, result, found⟩
  have goesOn : ∀ bound second, walkToEnd
      (upstreamChassis enclosedInEachOther (text "ContainedBy") .empty) bound (.chassis second) =
        none := by
    intro bound
    induction bound with
    | zero => exact fun _ => rfl
    | succ bound ih =>
      intro second
      exact ih !second
  have start : firstChassis enclosedInEachOther = .ok (.chassis false) := by decide
  have noCables : cableDownstreamToUpstreamMap enclosedInEachOther
      ⟨⟨some (text "ContainedBy"), false⟩, .empty, []⟩ = some .empty := by rfl
  rw [findRootChassisUri, start, noCables] at found
  simp only [goesOn] at found
  cases found

end Ecclesia.Topology
