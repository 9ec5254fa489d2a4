import Ecclesia.Planner.Assembly
import Ecclesia.Planner.Visits

namespace Ecclesia.Planner

open Absl List

/-!
# The deposits of a run

A traversal deposits one value for every subquery that ends at a place it comes to.  The
contexts that are still to be worked off know the deposits on the way to them.  So the data
of a run is assembled from a recorded sequence of deposits, and what is known of such
sequences holds of the run.
-/

section

variable {Object Iterable : Type}

/-- The subquery that ends at a node, with the place. -/
def RedPathTrieNode.entry (node : RedPathTrieNode) (place : Place Object Iterable) :
    List (Text × Place Object Iterable) :=
  if node.subqueryId.isEmpty then [] else [(node.subqueryId, place)]

/-- The trie nodes and places that a traversal comes to, with the subqueries that end on the way. -/
inductive ComesBy
    (select : Place Object Iterable -> RedPathExpression -> List (RedfishResponse Object Iterable))
    (root : RedPathTrieNode) (start : Place Object Iterable) :
    RedPathTrieNode -> Place Object Iterable -> List (Text × Place Object Iterable) -> Prop where
  | start : ComesBy select root start root start []
  | step {node : RedPathTrieNode} {place : Place Object Iterable}
      {path : List (Text × Place Object Iterable)} {expression : RedPathExpression}
      {response : RedfishResponse Object Iterable}
      (came : ComesBy select root start node place path)
      (member : expression ∈ node.childExpressions)
      (selected : response ∈ select place expression) :
      ComesBy select root start expression.trieNode (place.next expression response)
        (node.entry place ++ path)

variable {start : Place Object Iterable}

lemma ComesBy.comes
    {select : Place Object Iterable -> RedPathExpression -> List (RedfishResponse Object Iterable)}
    {root node : RedPathTrieNode} {place : Place Object Iterable}
    {path : List (Text × Place Object Iterable)}
    (came : ComesBy select root start node place path) : Comes select root start node place := by
  induction came with
  | start => exact .start
  | step came member selected ih => exact .step ih member selected

/-- The deposits that a traversal has made so far. -/
structure Deposited (ideal : Ideal Object Iterable) (root : RedPathTrieNode)
    (start : Place Object Iterable) (seen : Observed Object Iterable)
    (deposits : List (Deposit (Place Object Iterable))) : Prop where
  recorded : Recorded ideal.query deposits
  data : seen.data = assemble ideal.query deposits
  normalized : deposits.map (fun deposit =>
    (deposit.subqueryId, deposit.spot.redfishResponse)) = seen.normalized
  traced : ∀ deposit ∈ deposits, ∃ node,
    ComesBy ideal.select root start node deposit.spot deposit.path ∧
      node.subqueryId = deposit.subqueryId ∧ node.subqueryId ≠ [] ∧
      ideal.value deposit.subqueryId deposit.spot = some deposit.value

/-- A context knows the deposits on the way to its place, and the one at its place. -/
def Walks (ideal : Ideal Object Iterable) (root : RedPathTrieNode)
    (start : Place Object Iterable) (deposits : List (Deposit (Place Object Iterable)))
    (context : QueryExecutionContext Object Iterable) : Prop :=
  ∃ path, ComesBy ideal.select root start context.redpathTrieNode context.place path ∧
    Linked deposits context.subqueryIdToSubqueryResult
      (context.redpathTrieNode.entry context.place ++ path)

lemma Linked.mono {Spot : Type} {deposits more : List (Deposit Spot)}
    {results : List (Text × Location)} {path : List (Text × Spot)}
    (linked : Linked deposits results path) (isPrefix : deposits <+: more) :
    Linked more results path := by
  induction linked with
  | nil => exact .nil
  | cons member linked ih => exact .cons (isPrefix.subset member) ih

lemma Walks.mono {ideal : Ideal Object Iterable} {root : RedPathTrieNode}
    {deposits more : List (Deposit (Place Object Iterable))}
    {context : QueryExecutionContext Object Iterable}
    (walks : Walks ideal root start deposits context) (isPrefix : deposits <+: more) :
    Walks ideal root start more context := by
  rcases walks with ⟨path, came, linked⟩
  exact ⟨path, came, linked.mono isPrefix⟩

namespace Ideal

variable {ideal : Ideal Object Iterable} {root : RedPathTrieNode} {start : Place Object Iterable}
  (produces : ∀ node place, Comes ideal.select root start node place ->
    node.subqueryId ≠ [] -> ∃ value, ideal.value node.subqueryId place = some value)

include produces

variable {context : QueryExecutionContext Object Iterable} {seen : Observed Object Iterable}
  {deposits : List (Deposit (Place Object Iterable))}

lemma normalize_deposits {trieNode : RedPathTrieNode} {path : List (Text × Place Object Iterable)}
    (came : ComesBy ideal.select root start trieNode context.place path)
    (linked : Linked deposits context.subqueryIdToSubqueryResult path)
    (deposited : Deposited ideal root start seen deposits) :
    ∃ more, deposits <+: more ∧
      Deposited ideal root start (ideal.normalize trieNode context seen).1 more ∧
      Walks ideal root start more (ideal.normalize trieNode context seen).2 := by
  unfold Ideal.normalize
  by_cases unnamed : trieNode.subqueryId.isEmpty
  · rw [if_pos unnamed]
    refine ⟨deposits, prefix_rfl, deposited, path, came, ?_⟩
    unfold RedPathTrieNode.entry
    rw [if_pos unnamed]
    exact linked
  · rw [if_neg unnamed]
    have named : trieNode.subqueryId ≠ [] := by
      intro empty
      exact unnamed (by rw [empty]; rfl)
    rcases produces trieNode context.place came.comes named with ⟨value, built⟩
    simp only [built, recordValue, deposited.data]
    generalize isStored : storeQueryValue ideal.query trieNode.subqueryId value
      context.subqueryIdToSubqueryResult (assemble ideal.query deposits) = stored
    let deposit : Deposit (Place Object Iterable) :=
      ⟨trieNode.subqueryId, context.place, value, context.subqueryIdToSubqueryResult, path,
        stored.2⟩
    have recorded : Recorded ideal.query (deposits ++ [deposit]) :=
      deposited.recorded.snoc linked (congrArg Prod.snd isStored).symm
    have member : deposit ∈ deposits ++ [deposit] := mem_append_right _ (mem_singleton_self _)
    have longer : deposits <+: deposits ++ [deposit] := prefix_append _ _
    refine ⟨deposits ++ [deposit], longer, ⟨recorded, ?_, ?_, ?_⟩, path, came, ?_⟩
    · rw [assemble_snoc]
      exact (congrArg Prod.fst isStored).symm
    · rw [map_append, deposited.normalized]
      rfl
    · intro other isOther
      rcases mem_append.mp isOther with old | isLast
      · exact deposited.traced other old
      · cases mem_singleton.mp isLast
        exact ⟨trieNode, came, rfl, named, built⟩
    · unfold RedPathTrieNode.entry
      rw [if_neg unnamed]
      exact .cons member (linked.mono longer)

lemma normalizeAll_deposits {trieNode : RedPathTrieNode}
    {contexts : List (QueryExecutionContext Object Iterable)} (come : ∀ context ∈ contexts, ∃ path,
      ComesBy ideal.select root start trieNode context.place path ∧
        Linked deposits context.subqueryIdToSubqueryResult path)
    (deposited : Deposited ideal root start seen deposits) :
    ∃ more, deposits <+: more ∧
      Deposited ideal root start (ideal.normalizeAll trieNode contexts seen).1 more ∧
      ∀ next ∈ (ideal.normalizeAll trieNode contexts seen).2,
        Walks ideal root start more next := by
  induction contexts generalizing seen deposits with
  | nil => exact ⟨deposits, prefix_rfl, deposited, forall_mem_nil _⟩
  | cons context rest ih =>
    rcases come context (.head _) with ⟨path, came, linked⟩
    rcases normalize_deposits produces came linked deposited with
      ⟨between, isBetween, depositedBetween, walks⟩
    have comeLater : ∀ other ∈ rest, ∃ path,
        ComesBy ideal.select root start trieNode other.place path ∧
          Linked between other.subqueryIdToSubqueryResult path := by
      intro other member
      rcases come other (.tail _ member) with ⟨path, came, linked⟩
      exact ⟨path, came, linked.mono isBetween⟩
    rcases ih comeLater depositedBetween with ⟨more, isMore, depositedMore, walksMore⟩
    refine ⟨more, isBetween.trans isMore, depositedMore, ?_⟩
    intro next member
    rcases mem_cons.mp member with rfl | later
    · exact walks.mono isMore
    · exact walksMore next later

/-- The traversal has made some deposits, and every context at hand knows its own. -/
def DepositsAt (ideal : Ideal Object Iterable) (root : RedPathTrieNode)
    (start : Place Object Iterable) (seen : Observed Object Iterable)
    (context : QueryExecutionContext Object Iterable) (remaining : List RedPathExpression)
    (queue : List (QueryExecutionContext Object Iterable)) : Prop :=
  ∃ deposits, Deposited ideal root start seen deposits ∧
    Walks ideal root start deposits context ∧
    (∀ expression ∈ remaining, expression ∈ context.redpathTrieNode.childExpressions) ∧
    ∀ next ∈ queue, Walks ideal root start deposits next

lemma DepositsAt.follow {after : Observed Object Iterable}
    {changed : QueryExecutionContext Object Iterable} {expression : RedPathExpression}
    {remaining : List RedPathExpression}
    {queue found : List (QueryExecutionContext Object Iterable)}
    (at_ : DepositsAt ideal root start seen context (expression :: remaining) queue)
    (followed : ideal.follow seen context expression = .ok (after, changed, found)) :
    DepositsAt ideal root start after changed remaining (queue ++ found) := by
  cases followed
  rcases at_ with ⟨deposits, deposited, walks, edges, others⟩
  have come : ∀ next ∈ context.contextsFor expression
      (ideal.select context.place expression), ∃ path,
        ComesBy ideal.select root start expression.trieNode next.place path ∧
          Linked deposits next.subqueryIdToSubqueryResult path := by
    intro next member
    rcases mem_map.mp member with ⟨response, selected, rfl⟩
    rcases walks with ⟨path, came, linked⟩
    exact ⟨_, .step came (edges expression (.head _)) selected, linked⟩
  rcases normalizeAll_deposits produces come deposited with ⟨more, isMore, depositedMore, walksMore⟩
  refine ⟨more, depositedMore, walks.mono isMore, ?_, ?_⟩
  · intro other member
    exact edges other (.tail _ member)
  · intro next member
    rcases mem_append.mp member with old | isFound
    · exact (others next old).mono isMore
    · exact walksMore next isFound

/-- A whole traversal is a sequence of deposits. -/
lemma run_deposits {response : RedfishResponse Object Iterable} (isStart : start = ⟨[], response⟩) :
    ∃ seen deposits, ideal.run root response = .ok seen ∧
      Deposited ideal root start seen deposits := by
  have came : ComesBy ideal.select root start root
      (QueryExecutionContext.start root response).place [] := by
    rw [isStart]
    exact .start
  have empty : Deposited ideal root start ⟨[], []⟩ [] := ⟨.nil, rfl, rfl, forall_mem_nil _⟩
  rcases normalize_deposits produces came .nil empty with ⟨deposits, -, deposited, walks⟩
  have ends : ideal.search.EndsWithin (DepositsAt ideal root start)
      (ideal.search.run (ideal.normalize root (.start root response) ⟨[], []⟩).1
        (ideal.normalize root (.start root response) ⟨[], []⟩).2) := by
    apply ideal.search.explore_invariant
    · intro here context expression remaining queue after changed found at_ followed
      exact DepositsAt.follow produces at_ followed
    · rintro here context next queue ⟨made, depositedHere, -, -, others⟩
      exact ⟨made, depositedHere, others next (.head _), fun _ member => member,
        fun other member => others other (.tail _ member)⟩
    · exact ⟨deposits, deposited, walks, fun _ member => member, forall_mem_nil _⟩
  unfold Ideal.run
  cases explored : ideal.search.run (ideal.normalize root (.start root response) ⟨[], []⟩).1
      (ideal.normalize root (.start root response) ⟨[], []⟩).2 with
  | error impossible => cases impossible
  | ok seen =>
    rw [explored] at ends
    rcases ends with ⟨last, made, depositedLast, -⟩
    exact ⟨seen, made, rfl, depositedLast⟩

end Ideal

end

section

variable {World Object Iterable : Type} {planner : QueryPlanner World Object Iterable}
  {tree : ResourceTree Object Iterable} {interface : RedfishInterface World Object Iterable}
  {options : QueryExecutionOptions World Object Iterable}

/-- For every trie and every static tree in which nothing goes wrong: the data of a polling run is a
sequence of deposits, one for every subquery and resource that was normalised. Each of them stays in
its place, once, and nothing else is in the data, exactly when all deposits are regular. -/
theorem IsStatic.run_intact_iff (static : IsStatic planner interface tree)
    (polling : options.queryType = .polling)
    (local_ : localInterface planner options = some interface)
    {timeoutManager timing : Option QueryTimeoutManager} {world : World} {root : Object}
    (gets : GetsRoot planner options timeoutManager world timing root)
    (errorFree : ∀ node place expression, ComesFrom planner tree options root node place ->
      expression ∈ node.childExpressions ->
        ErrorFreeAt planner tree options.queryVariables place expression)
    (produces : ∀ node place, ComesFrom planner tree options root node place ->
      node.subqueryId ≠ [] -> ∃ value,
        treeValue planner tree options.urlAnnotationEnabled node.subqueryId place =
          .ok (some value)) :
    ∃ final deposits, RunEndsIn planner options timeoutManager world timing root final ∧
      Deposited (availableIdeal planner tree options) planner.redpathTrieRoot (rootPlace root)
        final.observed deposits ∧
      (Intact planner.query deposits ↔ Regular planner.query deposits) := by
  have normalises : ∀ node place, ComesFrom planner tree options root node place ->
      Normalises planner tree options.urlAnnotationEnabled node place := by
    intro node place comes named
    rcases produces node place comes named with ⟨value, built⟩
    exact ⟨some value, built⟩
  have ideally : ∀ node place, Comes (availableIdeal planner tree options).select
      planner.redpathTrieRoot (rootPlace root) node place -> node.subqueryId ≠ [] ->
        ∃ value,
          (availableIdeal planner tree options).value node.subqueryId place = some value := by
    intro node place comes named
    rcases produces node place comes named with ⟨value, built⟩
    refine ⟨value, ?_⟩
    change valueAt planner tree options.urlAnnotationEnabled node.subqueryId place = some value
    rw [valueAt, built]
  rcases static.run_available polling local_ gets errorFree normalises with ⟨final, ends, same⟩
  have isStart : (rootPlace root : Place Object Iterable) = ⟨[], .ofObject (some root)⟩ := rfl
  rcases Ideal.run_deposits ideally isStart with ⟨seen, deposits, ran, deposited⟩
  have isSeen : final.observed = seen := Except.ok.inj (same.symm.trans ran)
  subst isSeen
  exact ⟨final, deposits, ends, deposited, deposited.recorded.intact_iff_regular⟩

end

lemma findRootResult_single {Spot : Type} {query : DelliciusQuery} {deposit : Deposit Spot}
    {rootId : Text} (single : findRootIds query deposit.subqueryId = some [rootId]) :
    findRootResult query deposit.subqueryId deposit.results = deposit.predecessor query := by
  unfold findRootResult Deposit.predecessor
  rw [single, Option.getD_some, findSome?_cons]
  induction deposit.results with
  | nil => rfl
  | cons entry rest ih =>
    rcases entry with ⟨key, location⟩
    rw [lookup_cons, find?_cons]
    by_cases same : key = rootId
    · subst same
      simp
    · have differs : (rootId == key) = false := beq_false_of_ne (.symm same)
      have notListed : [rootId].contains key = false := by simp [same]
      simp only [differs, notListed]
      exact ih

lemma findRootResult_none {Spot : Type} {query : DelliciusQuery} {deposit : Deposit Spot}
    (none : findRootIds query deposit.subqueryId = none) :
    findRootResult query deposit.subqueryId deposit.results = deposit.predecessor query := by
  unfold findRootResult Deposit.predecessor
  rw [none]
  simp

/-- Readings of sensors of chassis, as three subqueries in a chain. -/
def readingsNode : RedPathExpression :=
  .mk .nodeName (text "Readings") (.mk (text "readings") [])

def sensorsNode : RedPathExpression :=
  .mk .nodeName (text "Sensors") (.mk (text "sensors") [readingsNode])

def chainNode : RedPathExpression :=
  .mk .nodeName (text "Chassis") (.mk (text "chassis") [sensorsNode])

def chainTable : ServiceTable where
  root := .ofObject 0
  nodes := [((0, text "Chassis"), .ofObject 1), ((1, text "Sensors"), .ofObject 2),
    ((2, text "Readings"), .ofObject 3)]
  members := []
  contents := []

/-- The readings have these root subqueries. -/
def chainPlanner (rootSubqueryIds : List Text) : QueryPlanner Unit Nat Nat :=
  tablePlanner chainTable [plainSubquery (text "chassis") [],
    plainSubquery (text "sensors") [text "chassis"],
    plainSubquery (text "readings") rootSubqueryIds] (.mk [] [chainNode]) .failOnFirstError

def chainPlace (redpath : String) (number : Nat) : Place Nat Nat :=
  ⟨text redpath, .ofObject (some number)⟩

variable {node : RedPathTrieNode} {place : Place Nat Nat}

lemma chainPlanner_comes {rootSubqueryIds : List Text}
    (comes : ComesFrom (chainPlanner rootSubqueryIds) chainTable.tree pollingOptions 0 node place) :
    (node = .mk [] [chainNode] ∧ place = rootPlace 0) ∨
      (node = chainNode.trieNode ∧ place = chainPlace "/Chassis" 1) ∨
      (node = sensorsNode.trieNode ∧ place = chainPlace "/Chassis/Sensors" 2) ∨
      (node = readingsNode.trieNode ∧ place = chainPlace "/Chassis/Sensors/Readings" 3) := by
  induction comes with
  | start => exact .inl ⟨rfl, rfl⟩
  | step came member selected ih =>
    rcases ih with ⟨rfl, rfl⟩ | ⟨rfl, rfl⟩ | ⟨rfl, rfl⟩ | ⟨rfl, rfl⟩
    · cases mem_singleton.mp member
      cases mem_singleton.mp selected
      exact .inr (.inl ⟨rfl, rfl⟩)
    · cases mem_singleton.mp member
      cases mem_singleton.mp selected
      exact .inr (.inr (.inl ⟨rfl, rfl⟩))
    · cases mem_singleton.mp member
      cases mem_singleton.mp selected
      exact .inr (.inr (.inr ⟨rfl, rfl⟩))
    · exact nomatch member

def chassisDeposit : Deposit (Place Nat Nat) :=
  ⟨text "chassis", chainPlace "/Chassis" 1, .subquery [(text "Number", .int 1)], [], [],
    [.field (text "chassis"), .element 0]⟩

def sensorsDeposit : Deposit (Place Nat Nat) :=
  ⟨text "sensors", chainPlace "/Chassis/Sensors" 2, .subquery [(text "Number", .int 2)],
    [(text "chassis", chassisDeposit.location)], [(text "chassis", chassisDeposit.spot)],
    chassisDeposit.location ++ [.field (text "sensors"), .element 0]⟩

/-- The readings below the chassis. -/
def readingsDeposit : Deposit (Place Nat Nat) :=
  ⟨text "readings", chainPlace "/Chassis/Sensors/Readings" 3,
    .subquery [(text "Number", .int 3)],
    [(text "sensors", sensorsDeposit.location), (text "chassis", chassisDeposit.location)],
    [(text "sensors", sensorsDeposit.spot), (text "chassis", chassisDeposit.spot)],
    chassisDeposit.location ++ [.field (text "readings"), .element 0]⟩

lemma readings_recorded : Recorded (chainPlanner [text "chassis", text "sensors"]).query
    [chassisDeposit, sensorsDeposit, readingsDeposit] := by
  have first : Recorded (chainPlanner [text "chassis", text "sensors"]).query
      [chassisDeposit] := Recorded.nil.snoc .nil rfl
  have linked : ∀ others, Linked (chassisDeposit :: others) sensorsDeposit.results
      sensorsDeposit.path := fun _ => .cons (.head _) .nil
  have second : Recorded (chainPlanner [text "chassis", text "sensors"]).query
      [chassisDeposit, sensorsDeposit] := first.snoc (linked []) rfl
  have isSensors : sensorsDeposit ∈ [chassisDeposit, sensorsDeposit] := .tail _ (.head _)
  exact second.snoc (.cons isSensors (linked [sensorsDeposit])) rfl

/-- The values of the run, each at the end of its part of the path. -/
lemma readings_deposited :
    Deposited (availableIdeal (chainPlanner [text "chassis", text "sensors"]) chainTable.tree
      pollingOptions) (.mk [] [chainNode]) (rootPlace 0)
      ⟨[(text "chassis", .list [.subquery [(text "Number", .int 1),
        (text "sensors", .list [.subquery [(text "Number", .int 2)]]),
        (text "readings", .list [.subquery [(text "Number", .int 3)]])]])],
        [(text "chassis", .ofObject (some 1)), (text "sensors", .ofObject (some 2)),
          (text "readings", .ofObject (some 3))]⟩
      [chassisDeposit, sensorsDeposit, readingsDeposit] := by
  have chassis : ComesBy (available (chainPlanner [text "chassis", text "sensors"])
      chainTable.tree []) (.mk [] [chainNode]) (rootPlace 0) chainNode.trieNode
      (chainPlace "/Chassis" 1) [] :=
    .step .start (.head _) (.head _)
  have sensors : ComesBy (available (chainPlanner [text "chassis", text "sensors"])
      chainTable.tree []) (.mk [] [chainNode]) (rootPlace 0) sensorsNode.trieNode
      (chainPlace "/Chassis/Sensors" 2) [(text "chassis", chainPlace "/Chassis" 1)] :=
    .step chassis (.head _) (.head _)
  have readings : ComesBy (available (chainPlanner [text "chassis", text "sensors"])
      chainTable.tree []) (.mk [] [chainNode]) (rootPlace 0) readingsNode.trieNode
      (chainPlace "/Chassis/Sensors/Readings" 3)
      [(text "sensors", chainPlace "/Chassis/Sensors" 2),
        (text "chassis", chainPlace "/Chassis" 1)] :=
    .step sensors (.head _) (.head _)
  refine ⟨readings_recorded, rfl, rfl, ?_⟩
  intro deposit member
  rcases mem_cons.mp member with rfl | member
  · exact ⟨_, chassis, rfl, by decide, rfl⟩
  · rcases mem_pair.mp member with rfl | rfl
    · exact ⟨_, sensors, rfl, by decide, rfl⟩
    · exact ⟨_, readings, rfl, by decide, rfl⟩

/-- The readings name both other subqueries as their roots, and end up beside the sensors. -/
theorem readings_misplaced :
    ∃ final deposits,
      RunEndsIn (chainPlanner [text "chassis", text "sensors"]) pollingOptions none () none 0
        final ∧
      Deposited (availableIdeal (chainPlanner [text "chassis", text "sensors"]) chainTable.tree
        pollingOptions) (.mk [] [chainNode]) (rootPlace 0) final.observed deposits ∧
      final.observed.data = [(text "chassis", .list [.subquery [(text "Number", .int 1),
        (text "sensors", .list [.subquery [(text "Number", .int 2)]]),
        (text "readings", .list [.subquery [(text "Number", .int 3)]])]])] ∧
      ¬ Intact (chainPlanner [text "chassis", text "sensors"]).query deposits := by
  have ran : ∃ final,
      RunEndsIn (chainPlanner [text "chassis", text "sensors"]) pollingOptions none () none 0
        final ∧
      final.observed = ⟨[(text "chassis", .list [.subquery [(text "Number", .int 1),
        (text "sensors", .list [.subquery [(text "Number", .int 2)]]),
        (text "readings", .list [.subquery [(text "Number", .int 3)]])]])],
        [(text "chassis", .ofObject (some 1)), (text "sensors", .ofObject (some 2)),
          (text "readings", .ofObject (some 3))]⟩ := ⟨_, .within ⟨rfl, rfl⟩ rfl 8 rfl, rfl⟩
  rcases ran with ⟨final, ends, observed⟩
  refine ⟨final, [chassisDeposit, sensorsDeposit, readingsDeposit], ends, ?_,
    by rw [observed], ?_⟩
  · rw [observed]
    exact readings_deposited
  · intro intact
    have member : readingsDeposit ∈ [chassisDeposit, sensorsDeposit, readingsDeposit] :=
      .tail _ (.tail _ (.head _))
    have placed := (intact _ List.prefix_rfl).placed readingsDeposit member
    rcases placed with ⟨index, same⟩ | ⟨raw, -⟩
    · have longer : 4 = 6 := congrArg List.length same
      cases longer
    · cases raw

lemma chainPlanner_errorFree {rootSubqueryIds : List Text} {expression : RedPathExpression}
    (comes : ComesFrom (chainPlanner rootSubqueryIds) chainTable.tree pollingOptions 0 node
      place) (member : expression ∈ node.childExpressions) :
    ErrorFreeAt (chainPlanner rootSubqueryIds) chainTable.tree [] place expression := by
  rcases chainPlanner_comes comes with ⟨rfl, rfl⟩ | ⟨rfl, rfl⟩ | ⟨rfl, rfl⟩ | ⟨rfl, rfl⟩
  · cases mem_singleton.mp member
    refine ⟨nofun, ?_⟩
    rintro object failure - shown answered
    cases shown
    cases answered
  · cases mem_singleton.mp member
    refine ⟨nofun, ?_⟩
    rintro object failure - shown answered
    cases shown
    cases answered
  · cases mem_singleton.mp member
    refine ⟨nofun, ?_⟩
    rintro object failure - shown answered
    cases shown
    cases answered
  · exact nomatch member

lemma chainPlanner_value
    (comes : ComesFrom (chainPlanner [text "sensors"]) chainTable.tree pollingOptions 0 node
      place) (named : node.subqueryId ≠ []) :
    (findRootIds (chainPlanner [text "sensors"]).query node.subqueryId = none ∨
      ∃ rootId, findRootIds (chainPlanner [text "sensors"]).query node.subqueryId = some [rootId]) ∧
    node.subqueryId ≠ text "Number" ∧
    ∃ number, treeValue (chainPlanner [text "sensors"]) chainTable.tree false
      node.subqueryId place = .ok (some (.subquery [(text "Number", .int number)])) := by
  rcases chainPlanner_comes comes with ⟨rfl, rfl⟩ | ⟨rfl, rfl⟩ | ⟨rfl, rfl⟩ | ⟨rfl, rfl⟩
  · exact absurd rfl named
  · exact ⟨.inl rfl, by decide, 1, rfl⟩
  · exact ⟨.inr ⟨_, rfl⟩, by decide, 2, rfl⟩
  · exact ⟨.inr ⟨_, rfl⟩, by decide, 3, rfl⟩

/-- The readings name the sensors alone: all values stay in their places. -/
theorem readings_intact :
    ∃ final deposits,
      RunEndsIn (chainPlanner [text "sensors"]) pollingOptions none () none 0 final ∧
      Deposited (availableIdeal (chainPlanner [text "sensors"]) chainTable.tree pollingOptions)
        (.mk [] [chainNode]) (rootPlace 0) final.observed deposits ∧
      Intact (chainPlanner [text "sensors"]).query deposits := by
  have static : IsStatic (chainPlanner [text "sensors"]) chainTable.interface chainTable.tree :=
    tablePlanner_isStatic _ _ _ _
  have gets : GetsRoot (chainPlanner [text "sensors"]) pollingOptions none () none 0 := ⟨rfl, rfl⟩
  rcases static.run_intact_iff rfl rfl gets (fun _ _ _ => chainPlanner_errorFree)
    (fun node place comes named => by
      rcases chainPlanner_value comes named with ⟨-, -, number, built⟩
      exact ⟨_, built⟩) with ⟨final, deposits, ends, deposited, intact⟩
  refine ⟨final, deposits, ends, deposited, intact.mpr ?_⟩
  have values : ∀ deposit ∈ deposits,
      (findRootIds (chainPlanner [text "sensors"]).query deposit.subqueryId = none ∨
        ∃ rootId,
          findRootIds (chainPlanner [text "sensors"]).query deposit.subqueryId = some [rootId]) ∧
      deposit.subqueryId ≠ text "Number" ∧
      ∃ number, deposit.value = .subquery [(text "Number", .int number)] := by
    intro deposit member
    rcases deposited.traced deposit member with ⟨node, came, sameId, named, value⟩
    rcases chainPlanner_value came.comes named with ⟨roots, differs, number, built⟩
    rw [sameId] at roots differs built
    refine ⟨roots, differs, number, ?_⟩
    change valueAt (chainPlanner [text "sensors"]) chainTable.tree false deposit.subqueryId
      deposit.spot = some deposit.value at value
    rw [valueAt, built] at value
    exact (Option.some.inj value).symm
  intro earlier deposit isPrefix
  have member : deposit ∈ deposits :=
    isPrefix.subset (List.mem_append_right _ (List.mem_singleton_self _))
  have before : ∀ other ∈ earlier, other ∈ deposits :=
    fun other isOther => isPrefix.subset (List.mem_append_left _ isOther)
  rcases values deposit member with ⟨roots, differs, -⟩
  refine ⟨?_, ?_, ?_⟩
  · rcases roots with none | ⟨rootId, single⟩
    · exact findRootResult_none none
    · exact findRootResult_single single
  · intro root known
    rcases (deposited.recorded.of_prefix isPrefix).last.1.of_predecessor known with
      ⟨parent, isParent, atParent⟩
    rcases values parent (before parent isParent) with ⟨-, -, number, isValue⟩
    refine ⟨_, ⟨parent, isParent, atParent, isValue⟩, ?_⟩
    rw [List.lookup_cons, beq_false_of_ne differs]
    rfl
  · intro root first known isFirst
    rcases values first (before first (List.mem_of_find?_eq_some isFirst)) with
      ⟨-, -, number, isValue⟩
    rw [isValue]
    rfl

end Ecclesia.Planner
