import Ecclesia.Library.Chain
import Ecclesia.Query.Proto

namespace Ecclesia.Query

open Absl List

/-!
# Joining subqueries

A subquery names the subqueries it is rooted in, so the subqueries of a query
form a graph.  `JoinSubqueries` lists the chains of this graph that start at a
subquery without roots and cannot be prolonged.  It walks the graph depth
first, with one path that grows and shrinks as the walk goes on.  The
definitions follow `join.cc`; the order in which hash tables are iterated is a
parameter.
-/

/-! ## The program -/

/-- Insert into the set under a key, which is created if needed. -/
def insertUnder (key value : Text) : List (Text × List Text) -> List (Text × List Text)
  | [] => [(key, [value])]
  | (other, values) :: rest =>
    if other = key then (other, values.insert value) :: rest
    else (other, values) :: insertUnder key value rest

def buildParentChildSubqueryMap (query : DelliciusQuery) : List (Text × List Text) :=
  query.subquery.foldl
    (fun map subquery => subquery.rootSubqueryIds.foldl
      (fun map parentSubqueryId => insertUnder parentSubqueryId subquery.subqueryId map) map) []

def getRootSubqueries (query : DelliciusQuery) : List Text :=
  query.subquery.foldl (fun roots subquery =>
      if subquery.rootSubqueryIds.isEmpty then roots.insert subquery.subqueryId else roots) []

/-- What the walk changes: the path it is on, and the chains it has found. -/
structure JoinState where
  joinedSubquery : List Text
  allJoinedSubqueries : List (List Text)

/-- The loop over the children: the first error ends it. -/
def joinEach (join : Text -> JoinState -> Option (Status × JoinState)) :
    List Text -> JoinState -> Option (Status × JoinState)
  | [], state => some (.okStatus, state)
  | child :: rest, state =>
    match join child state with
    | none => none
    | some (status, after) =>
      if status.isOk then joinEach join rest after else some (status, after)

section

variable (order : IterationOrder Text)

/-- `JoinSubqueriesFromGivenRoot`, with a bound on the depth of the recursion. -/
def joinSubqueriesFromGivenRoot (parentChildSubqueryMap : List (Text × List Text)) :
    Nat -> Text -> JoinState -> Option (Status × JoinState)
  | 0, _, _ => none
  | bound + 1, rootSubqueryId, state =>
    if rootSubqueryId ∈ state.joinedSubquery then
      some (.internal (rootSubqueryId ++ text " already exists. Loop detected!"), state)
    else
      let pushed := { state with joinedSubquery := state.joinedSubquery ++ [rootSubqueryId] }
      match parentChildSubqueryMap.lookup rootSubqueryId with
      | none =>
        some (.okStatus, ⟨pushed.joinedSubquery.dropLast,
          pushed.allJoinedSubqueries.insert pushed.joinedSubquery⟩)
      | some children =>
        match joinEach (joinSubqueriesFromGivenRoot parentChildSubqueryMap bound)
            (order.iterate children) pushed with
        | none => none
        | some (status, after) =>
          if status.isOk then
            some (.okStatus, { after with joinedSubquery := after.joinedSubquery.dropLast })
          else some (status, after)

/-- The loop over the root subqueries, each with a path of its own. -/
def joinRoots (parentChildSubqueryMap : List (Text × List Text)) (bound : Nat) :
    List Text -> List (List Text) -> Option (Status × List (List Text))
  | [], all => some (.okStatus, all)
  | root :: rest, all =>
    match joinSubqueriesFromGivenRoot order parentChildSubqueryMap bound root ⟨[], all⟩ with
    | none => none
    | some (status, after) =>
      if status.isOk then
        joinRoots parentChildSubqueryMap bound rest after.allJoinedSubqueries
      else some (status, after.allJoinedSubqueries)

/-- `JoinSubqueries`, from an empty set of chains. -/
def joinSubqueries (bound : Nat) (query : DelliciusQuery) :
    Option (Status × List (List Text)) :=
  let rootSubqueries := getRootSubqueries query
  if rootSubqueries.isEmpty then
    some (.invalidArgument (text "No root subqueries found in the query"), [])
  else
    joinRoots order (buildParentChildSubqueryMap query) bound (order.iterate rootSubqueries) []

end

/-! ## The graph of a query -/

/-- A subquery names another one as its root. -/
def Links (query : DelliciusQuery) (parent child : Text) : Prop :=
  ∃ subquery ∈ query.subquery, subquery.subqueryId = child ∧ parent ∈ subquery.rootSubqueryIds

/-- A subquery without roots. -/
def IsRoot (query : DelliciusQuery) (id : Text) : Prop :=
  ∃ subquery ∈ query.subquery, subquery.subqueryId = id ∧ subquery.rootSubqueryIds = []

instance (query : DelliciusQuery) (parent child : Text) : Decidable (Links query parent child) :=
  inferInstanceAs (Decidable (∃ subquery ∈ query.subquery,
    subquery.subqueryId = child ∧ parent ∈ subquery.rootSubqueryIds))

instance (query : DelliciusQuery) (id : Text) : Decidable (IsRoot query id) :=
  inferInstanceAs (Decidable (∃ subquery ∈ query.subquery,
    subquery.subqueryId = id ∧ subquery.rootSubqueryIds = []))

variable {query : DelliciusQuery} {id : Text}

lemma mem_getRootSubqueries : id ∈ getRootSubqueries query ↔ IsRoot query id := by
  have general : ∀ (subqueries : List Subquery) (roots : List Text),
      id ∈ subqueries.foldl (fun roots subquery => if subquery.rootSubqueryIds.isEmpty then
          roots.insert subquery.subqueryId else roots) roots ↔
        id ∈ roots ∨ ∃ subquery ∈ subqueries, subquery.subqueryId = id ∧
          subquery.rootSubqueryIds = [] := by
    intro subqueries
    induction subqueries with
    | nil =>
      intro roots
      simp
    | cons first rest ih =>
      intro roots
      by_cases isRoot : first.rootSubqueryIds.isEmpty
      · grind
      · grind
  rw [getRootSubqueries, general]
  simp [IsRoot]

/-- What a map of sets holds under a key. -/
def Under (map : List (Text × List Text)) (key value : Text) : Prop :=
  ∃ values, map.lookup key = some values ∧ value ∈ values

/-- No set is empty. -/
def Filled (map : List (Text × List Text)) : Prop :=
  ∀ key values, map.lookup key = some values -> values ≠ []

lemma lookup_insertUnder (key value other : Text) (map : List (Text × List Text)) :
    (insertUnder key value map).lookup other =
      if other = key then some (((map.lookup key).getD []).insert value)
      else map.lookup other := by
  induction map with
  | nil =>
    by_cases same : other = key
    · rw [insertUnder, lookup_cons, if_pos same, beq_iff_eq.mpr same]
      rfl
    · rw [insertUnder, lookup_cons, if_neg same, beq_false_of_ne same]
  | cons entry rest ih =>
    rcases entry with ⟨present, values⟩
    rw [insertUnder]
    by_cases found : present = key
    · subst found
      rw [if_pos rfl]
      by_cases same : other = present
      · subst same
        simp
      · simp only [lookup_cons, beq_false_of_ne same, if_neg same]
    · rw [if_neg found, lookup_cons, ih]
      by_cases same : other = present
      · subst same
        simp [found]
      · have differs : (key == present) = false := beq_false_of_ne fun same => found same.symm
        simp only [beq_false_of_ne same, lookup_cons, differs]

variable {map : List (Text × List Text)}

lemma under_insertUnder {key value other found : Text} :
    Under (insertUnder key value map) other found ↔
      (other = key ∧ found = value) ∨ Under map other found := by
  unfold Under
  rw [lookup_insertUnder]
  by_cases same : other = key
  · subst same
    cases known : map.lookup other with
    | none => simp
    | some values =>
      simp [mem_insert_iff]
  · simp [same]

lemma Filled.insertUnder (filled : Filled map)
    (key value : Text) : Filled (Query.insertUnder key value map) := by
  intro other values found
  rw [lookup_insertUnder] at found
  split_ifs at found
  · cases found
    exact ne_nil_of_mem (mem_insert_self)
  · exact filled other values found

lemma under_buildParentChildSubqueryMap {parent child : Text} :
    Under (buildParentChildSubqueryMap query) parent child ↔ Links query parent child := by
  have inner : ∀ (id : Text) (roots : List Text) (map : List (Text × List Text)),
      Under (roots.foldl (fun map root => insertUnder root id map) map) parent child ↔
        (child = id ∧ parent ∈ roots) ∨ Under map parent child := by
    intro id roots
    induction roots with
    | nil =>
      intro map
      simp
    | cons first rest ih =>
      intro map
      rw [foldl_cons, ih, under_insertUnder]
      grind
  have outer : ∀ (subqueries : List Subquery) (map : List (Text × List Text)),
      Under (subqueries.foldl (fun map subquery => subquery.rootSubqueryIds.foldl
          (fun map root => insertUnder root subquery.subqueryId map) map) map) parent child ↔
        (∃ subquery ∈ subqueries, subquery.subqueryId = child ∧
          parent ∈ subquery.rootSubqueryIds) ∨ Under map parent child := by
    intro subqueries
    induction subqueries with
    | nil =>
      intro map
      simp
    | cons first rest ih =>
      intro map
      rw [foldl_cons, ih, inner]
      grind
  rw [buildParentChildSubqueryMap, outer]
  unfold Links Under
  simp

lemma filled_buildParentChildSubqueryMap (query : DelliciusQuery) :
    Filled (buildParentChildSubqueryMap query) := by
  have inner : ∀ (id : Text) (roots : List Text) (map : List (Text × List Text)),
      Filled map -> Filled (roots.foldl (fun map root => insertUnder root id map) map) := by
    intro id roots
    induction roots with
    | nil => exact fun map filled => filled
    | cons first rest ih => exact fun map filled => ih _ (filled.insertUnder first id)
  have outer : ∀ (subqueries : List Subquery) (map : List (Text × List Text)),
      Filled map -> Filled (subqueries.foldl (fun map subquery => subquery.rootSubqueryIds.foldl
        (fun map root => insertUnder root subquery.subqueryId map) map) map) := by
    intro subqueries
    induction subqueries with
    | nil => exact fun map filled => filled
    | cons first rest ih => exact fun map filled => ih _ (inner _ _ _ filled)
  exact outer _ _ nofun

/-! ## The walk -/

variable {rest path : List Text} {bound : Nat}

section

variable {order : IterationOrder Text} {map : List (Text × List Text)}

/-- The keys that a path has not met yet. -/
def unmet (map : List (Text × List Text)) (path : List Text) : Nat :=
  ((map.map Prod.fst).filter (· ∉ path)).length

variable {id : Text}

/-- The recursion goes deeper only at a key that the path has not met before. -/
lemma unmet_push {children : List Text} (found : map.lookup id = some children)
    (fresh : id ∉ path) :
    unmet map (path ++ [id]) < unmet map path := by
  have key : id ∈ map.map Prod.fst := by
    rcases lookup_eq_some_iff.mp found with ⟨before, after, same, -⟩
    rw [same]
    simp
  have fewer : ((map.map Prod.fst).filter (· ∉ path ++ [id])).Sublist
      ((map.map Prod.fst).filter (· ∉ path)) := by
    apply monotone_filter_right _
    intro other kept
    simp only [mem_append, decide_eq_true_eq, not_or] at kept ⊢
    exact kept.1
  by_contra most
  have same := fewer.eq_of_length_le (Nat.not_lt.mp most)
  have kept : id ∈ (map.map Prod.fst).filter (· ∉ path) :=
    mem_filter.mpr ⟨key, by simpa using fresh⟩
  rw [<- same] at kept
  simp at kept

/-- A chain from an id that ends where the map has no children. -/
def Completes (map : List (Text × List Text)) (id : Text) (rest : List Text) : Prop :=
  (id :: rest).IsChain (Under map) ∧ map.lookup ((id :: rest).getLast (List.cons_ne_nil _ _)) = none

/-- No chain from an id meets a node of the path, or a node twice. -/
def Straight (map : List (Text × List Text)) (path : List Text) (id : Text) : Prop :=
  ∀ rest, (id :: rest).IsChain (Under map) -> (path ++ id :: rest).Nodup

/-- The walk from an id succeeds if all chains are straight, and adds those that cannot be
prolonged. -/
structure Walks (map : List (Text × List Text)) (id : Text) (state : JoinState)
    (status : Status) (after : JoinState) : Prop where
  ok_iff : status.isOk = true ↔ Straight map state.joinedSubquery id
  path : status.isOk = true -> after.joinedSubquery = state.joinedSubquery
  chains : status.isOk = true -> ∀ chain, chain ∈ after.allJoinedSubqueries ↔
    chain ∈ state.allJoinedSubqueries ∨
      ∃ rest, Completes map id rest ∧ chain = state.joinedSubquery ++ id :: rest

/-- The loop over some ids, all from the same path. -/
structure WalksEach (map : List (Text × List Text)) (ids : List Text) (state : JoinState)
    (status : Status) (after : JoinState) : Prop where
  ok_iff : status.isOk = true ↔ ∀ id ∈ ids, Straight map state.joinedSubquery id
  path : status.isOk = true -> after.joinedSubquery = state.joinedSubquery
  chains : status.isOk = true -> ∀ chain, chain ∈ after.allJoinedSubqueries ↔
    chain ∈ state.allJoinedSubqueries ∨ ∃ id ∈ ids,
      ∃ rest, Completes map id rest ∧ chain = state.joinedSubquery ++ id :: rest

lemma joinEach_walks {join : Text -> JoinState -> Option (Status × JoinState)} {ids : List Text}
    {state : JoinState} (walks : ∀ id ∈ ids, ∀ current : JoinState,
      current.joinedSubquery = state.joinedSubquery -> ∃ status after,
        join id current = some (status, after) ∧ Walks map id current status after) :
    ∃ status after, joinEach join ids state = some (status, after) ∧
      WalksEach map ids state status after := by
  induction ids generalizing state with
  | nil =>
    refine ⟨.okStatus, state, rfl, ?_, fun _ => rfl, ?_⟩
    · simp
    · intro _ chain
      simp
  | cons first rest ih =>
    rcases walks first (.head _) state rfl with ⟨status, between, ran, walked⟩
    rw [joinEach, ran]
    by_cases fine : status.isOk = true
    · simp only [if_pos fine]
      have samePath := walked.path fine
      have later : ∀ id ∈ rest, ∀ current : JoinState,
          current.joinedSubquery = between.joinedSubquery -> ∃ status after,
            join id current = some (status, after) ∧ Walks map id current status after := by
        intro id member current same
        exact walks id (.tail _ member) current (same.trans samePath)
      rcases ih later with ⟨ended, after, ranRest, others⟩
      refine ⟨ended, after, ranRest, ?_, ?_, ?_⟩
      · rw [others.ok_iff, samePath, forall_mem_cons]
        exact ⟨fun straight => ⟨walked.ok_iff.mp fine, straight⟩, fun straight => straight.2⟩
      · intro ok
        rw [others.path ok, samePath]
      · intro ok chain
        rw [others.chains ok, walked.chains fine, samePath]
        simp only [mem_cons, exists_eq_or_imp]
        rw [or_assoc]
    · simp only [if_neg fine]
      refine ⟨status, between, rfl, ?_, fun ok => absurd ok fine, fun ok => absurd ok fine⟩
      constructor
      · exact fun ok => absurd ok fine
      · intro straight
        exact absurd (walked.ok_iff.mpr (straight first (.head _))) fine

lemma isChain_cons_cases {Node : Type} {Link : Node -> Node -> Prop} {id : Node}
    {rest : List Node} :
    (id :: rest).IsChain Link ↔ rest = [] ∨
      ∃ child later, rest = child :: later ∧ Link id child ∧ (child :: later).IsChain Link := by
  cases rest with
  | nil => simp
  | cons child later => simp [isChain_cons_cons]

lemma straight_of_children (once : path.Nodup) (fresh : id ∉ path) :
    Straight map path id ↔ ∀ child, Under map id child -> Straight map (path ++ [id]) child := by
  constructor
  · intro straight child linked rest chain
    rw [append_assoc]
    exact straight (child :: rest) (isChain_cons_cons.mpr ⟨linked, chain⟩)
  · intro straight rest chain
    rcases isChain_cons_cases.mp chain with rfl | ⟨child, later, rfl, linked, chain⟩
    · exact nodup_append'.mpr ⟨once, nodup_singleton id, by simpa using fresh⟩
    · have later := straight child linked later chain
      rw [append_assoc] at later
      exact later

lemma completes_of_children {children : List Text} (found : map.lookup id = some children) :
    Completes map id rest ↔ ∃ child later, rest = child :: later ∧ Under map id child ∧
      Completes map child later := by
  constructor
  · rintro ⟨chain, ends⟩
    rcases isChain_cons_cases.mp chain with rfl | ⟨child, later, rfl, linked, chain⟩
    · rw [getLast_singleton, found] at ends
      cases ends
    · exact ⟨child, later, rfl, linked, chain, ends⟩
  · rintro ⟨child, later, rfl, linked, chain, ends⟩
    refine ⟨isChain_cons_cons.mpr ⟨linked, chain⟩, ?_⟩
    exact ends

lemma completes_of_leaf (leaf : map.lookup id = none) : Completes map id rest ↔ rest = [] := by
  constructor
  · rintro ⟨chain, -⟩
    rcases isChain_cons_cases.mp chain with none | ⟨child, later, -, ⟨values, found, -⟩, -⟩
    · exact none
    · rw [leaf] at found
      cases found
  · rintro rfl
    exact ⟨isChain_singleton id, leaf⟩

/-- The walk ends if the bound exceeds the number of keys that the path has not
met. -/
lemma joinSubqueriesFromGivenRoot_walks {state : JoinState}
    (enough : unmet map state.joinedSubquery < bound) (once : state.joinedSubquery.Nodup) :
    ∃ status after,
      joinSubqueriesFromGivenRoot order map bound id state = some (status, after) ∧
        Walks map id state status after := by
  induction bound generalizing id state with
  | zero => exact absurd enough (Nat.not_lt_zero _)
  | succ bound ih =>
    rw [joinSubqueriesFromGivenRoot]
    by_cases met : id ∈ state.joinedSubquery
    · rw [if_pos met]
      refine ⟨_, state, rfl, ?_, nofun, nofun⟩
      refine ⟨nofun, fun straight => ?_⟩
      have twice := straight [] (isChain_singleton id)
      exact absurd (.head _) (disjoint_of_nodup_append twice met)
    · rw [if_neg met]
      have fresh : (state.joinedSubquery ++ [id]).Nodup :=
        nodup_append'.mpr ⟨once, nodup_singleton id, by simpa using met⟩
      cases found : map.lookup id with
      | none =>
        refine ⟨_, _, rfl, ?_, ?_, ?_⟩
        · refine ⟨fun _ => (straight_of_children once met).mpr ?_, fun _ => rfl⟩
          rintro child ⟨values, impossible, -⟩
          rw [found] at impossible
          cases impossible
        · intro _
          exact dropLast_concat
        · intro _ chain
          simp only [mem_insert_iff, completes_of_leaf found, exists_eq_left]
          exact or_comm
      | some children =>
        have walks : ∀ child ∈ order.iterate children,
            ∀ current : JoinState,
            current.joinedSubquery = state.joinedSubquery ++ [id] -> ∃ status after,
              joinSubqueriesFromGivenRoot order map bound child current =
                some (status, after) ∧ Walks map child current status after := by
          intro child _ current same
          refine ih ?_ (same ▸ fresh)
          rw [same]
          exact Nat.lt_of_lt_of_le (unmet_push found met) (Nat.lt_succ_iff.mp enough)
        have linked : ∀ child, child ∈ order.iterate children ↔ Under map id child := by
          intro child
          rw [order.mem_iterate]
          constructor
          · intro member
            exact ⟨children, found, member⟩
          · rintro ⟨values, same, member⟩
            rw [found] at same
            cases same
            exact member
        have ended : ∃ status after,
            joinEach (joinSubqueriesFromGivenRoot order map bound) (order.iterate children)
                ⟨state.joinedSubquery ++ [id], state.allJoinedSubqueries⟩ =
              some (status, after) ∧
            WalksEach map (order.iterate children)
              ⟨state.joinedSubquery ++ [id], state.allJoinedSubqueries⟩ status after :=
          joinEach_walks walks
        rcases ended with ⟨status, after, ran, each⟩
        have okIff : status.isOk = true ↔ Straight map state.joinedSubquery id := by
          rw [each.ok_iff, straight_of_children once met]
          exact forall_congr' fun child => by rw [linked]
        simp only [ran]
        by_cases fine : status.isOk = true
        · rw [if_pos fine]
          refine ⟨_, _, rfl, ⟨fun _ => okIff.mp fine, fun _ => rfl⟩, ?_, ?_⟩
          · intro _
            simp only [each.path fine]
            exact dropLast_concat
          · intro _ chain
            simp only [each.chains fine, linked, completes_of_children found]
            apply or_congr_right
            constructor
            · rintro ⟨child, member, later, ends, rfl⟩
              exact ⟨child :: later, ⟨child, later, rfl, member, ends⟩, (append_cons _ _ _).symm⟩
            · rintro ⟨rest, ⟨child, later, rfl, member, ends⟩, rfl⟩
              exact ⟨child, member, later, ends, append_cons _ _ _⟩
        · rw [if_neg fine]
          exact ⟨status, after, rfl, okIff, fun ok => absurd ok fine, fun ok => absurd ok fine⟩

/-- The loop over the roots, with a new path for each of them. -/
lemma joinRoots_walks (enough : map.length < bound) (roots : List Text) (all : List (List Text)) :
    ∃ status after, joinRoots order map bound roots all = some (status, after) ∧
      (status.isOk = true ↔ ∀ root ∈ roots, Straight map [] root) ∧
      (status.isOk = true -> ∀ chain, chain ∈ after ↔ chain ∈ all ∨
        ∃ root ∈ roots, ∃ rest, Completes map root rest ∧ chain = root :: rest) := by
  induction roots generalizing all with
  | nil =>
    refine ⟨.okStatus, all, rfl, ?_, ?_⟩
    · simp
    · intro _ chain
      simp
  | cons root rest ih =>
    have bounded : unmet map [] < bound := by
      refine Nat.lt_of_le_of_lt ?_ enough
      apply Nat.le_trans (length_filter_le _ _)
      rw [length_map]
    have walk : ∃ status after,
        joinSubqueriesFromGivenRoot order map bound root ⟨[], all⟩ = some (status, after) ∧
          Walks map root ⟨[], all⟩ status after :=
      joinSubqueriesFromGivenRoot_walks bounded nodup_nil
    rcases walk with ⟨status, between, ran, walked⟩
    rw [joinRoots, ran]
    by_cases fine : status.isOk = true
    · simp only [if_pos fine]
      rcases ih between.allJoinedSubqueries with ⟨ended, after, ranRest, okIff, chains⟩
      refine ⟨ended, after, ranRest, ?_, ?_⟩
      · rw [okIff, forall_mem_cons]
        exact ⟨fun straight => ⟨walked.ok_iff.mp fine, straight⟩, fun straight => straight.2⟩
      · intro ok chain
        rw [chains ok, walked.chains fine]
        simp only [mem_cons, exists_eq_or_imp, nil_append]
        rw [or_assoc]
    · simp only [if_neg fine]
      refine ⟨status, _, rfl, ?_, fun ok => absurd ok fine⟩
      constructor
      · exact fun ok => absurd ok fine
      · intro straight
        exact absurd (walked.ok_iff.mpr (straight root (.head _))) fine

end

/-! ## The chains of a query -/

/-- A chain that starts at a subquery without roots and ends at a subquery that no
other one names as its root. -/
structure IsMaximalChain (query : DelliciusQuery) (chain : List Text) : Prop where
  starts : ∃ root, chain.head? = some root ∧ IsRoot query root
  linked : chain.IsChain (Links query)
  ends : ∀ last, chain.getLast? = some last -> ∀ child, ¬ Links query last child

/-- The query has no subquery without roots, or a cycle can be reached from one. -/
def Unjoinable (query : DelliciusQuery) : Prop :=
  (∀ id, ¬ IsRoot query id) ∨ ∃ root, IsRoot query root ∧ ReachesCycle (Links query) root

variable {root : Text}

lemma completes_iff :
    Completes (buildParentChildSubqueryMap query) root rest ↔
      (root :: rest).IsChain (Links query) ∧
        ∀ child, ¬ Links query ((root :: rest).getLast (cons_ne_nil _ _)) child := by
  have same : Under (buildParentChildSubqueryMap query) = Links query := by
    funext parent child
    exact propext under_buildParentChildSubqueryMap
  unfold Completes
  rw [same]
  refine and_congr_right fun _ => ?_
  generalize (root :: rest).getLast (cons_ne_nil _ _) = last
  simp only [<- under_buildParentChildSubqueryMap]
  constructor
  · rintro none child ⟨values, found, -⟩
    rw [none] at found
    cases found
  · intro childless
    cases found : (buildParentChildSubqueryMap query).lookup last with
    | none => rfl
    | some values =>
      rcases exists_mem_of_ne_nil _ (filled_buildParentChildSubqueryMap query _ _ found)
        with ⟨child, member⟩
      exact absurd ⟨values, found, member⟩ (childless child)

lemma isMaximalChain_cons :
    IsMaximalChain query (root :: rest) ↔ IsRoot query root ∧
      Completes (buildParentChildSubqueryMap query) root rest := by
  rw [completes_iff]
  constructor
  · rintro ⟨⟨first, same, isRoot⟩, linked, ends⟩
    cases same
    exact ⟨isRoot, linked, ends _ (getLast?_eq_some_getLast _)⟩
  · rintro ⟨isRoot, linked, ends⟩
    refine ⟨⟨root, rfl, isRoot⟩, linked, ?_⟩
    intro last isLast
    cases isLast
    exact ends

lemma straight_iff : Straight (buildParentChildSubqueryMap query) [] root ↔
      ¬ ReachesCycle (Links query) root := by
  have same : Under (buildParentChildSubqueryMap query) = Links query := by
    funext parent child
    exact propext under_buildParentChildSubqueryMap
  unfold Straight
  rw [reachesCycle_iff_isChain, same]
  simp only [nil_append, not_exists, not_and, not_not]

lemma joinSubqueries_rootless (rootless : ∀ id, ¬ IsRoot query id)
    (order : IterationOrder Text) (bound : Nat) :
    joinSubqueries order bound query =
      some (.invalidArgument (text "No root subqueries found in the query"), []) := by
  have none : getRootSubqueries query = [] := by
    apply eq_nil_iff_forall_not_mem.mpr
    intro id member
    exact rootless id (mem_getRootSubqueries.mp member)
  simp only [joinSubqueries, none, isEmpty_nil, if_true]

/-- What `JoinSubqueries` makes of a query. -/
structure Joins (query : DelliciusQuery) (status : Status) (chains : List (List Text)) :
    Prop where
  fails_iff : status.isOk = false ↔ Unjoinable query
  mem_iff : status.isOk = true -> ∀ chain, chain ∈ chains ↔ IsMaximalChain query chain

lemma joinSubqueries_joins (query : DelliciusQuery) (order : IterationOrder Text)
    (enough : (buildParentChildSubqueryMap query).length < bound) :
    ∃ status chains, joinSubqueries order bound query = some (status, chains) ∧
      Joins query status chains := by
  unfold joinSubqueries
  by_cases none : (getRootSubqueries query).isEmpty
  · simp only [if_pos none]
    refine ⟨_, _, rfl, ⟨fun _ => .inl ?_, fun _ => rfl⟩, nofun⟩
    intro id isRoot
    have member := mem_getRootSubqueries.mpr isRoot
    rw [List.isEmpty_iff.mp none] at member
    exact nomatch member
  · simp only [if_neg none]
    rcases joinRoots_walks enough (order.iterate (getRootSubqueries query)) [] with
      ⟨status, after, ran, okIff, chains⟩
    have rooted : ∃ id, IsRoot query id := by
      rcases exists_mem_of_ne_nil _ fun empty => none (List.isEmpty_iff.mpr empty) with ⟨id, member⟩
      exact ⟨id, mem_getRootSubqueries.mp member⟩
    refine ⟨status, after, ran, ?_, ?_⟩
    · rw [<- Bool.not_eq_true, okIff]
      simp only [order.mem_iterate, mem_getRootSubqueries, straight_iff]
      constructor
      · intro some_
        refine .inr ?_
        by_contra absent
        exact some_ fun root isRoot cycle => absent ⟨root, isRoot, cycle⟩
      · rintro (rootless | ⟨root, isRoot, cycle⟩) straight
        · rcases rooted with ⟨id, isRoot⟩
          exact rootless id isRoot
        · exact straight root isRoot cycle
    · intro fine chain
      rw [chains fine]
      simp only [order.mem_iterate, mem_getRootSubqueries, not_mem_nil, false_or]
      constructor
      · rintro ⟨root, isRoot, rest, completes, rfl⟩
        exact isMaximalChain_cons.mpr ⟨isRoot, completes⟩
      · intro maximal
        rcases maximal.starts with ⟨root, head, -⟩
        cases chain with
        | nil => cases head
        | cons first rest =>
          rcases isMaximalChain_cons.mp maximal with ⟨isRoot, completes⟩
          exact ⟨first, isRoot, rest, completes, rfl⟩

/-- For every query and every order of iteration, `JoinSubqueries` comes to an end. It fails exactly
when no subquery is without roots or a cycle can be reached from such a subquery, and otherwise
lists exactly the chains that start at a subquery without roots and cannot be prolonged. -/
theorem joinSubqueries_chains (query : DelliciusQuery) (order : IterationOrder Text)
    {bound : Nat} (enough : (buildParentChildSubqueryMap query).length < bound) :
    ∃ status chains, joinSubqueries order bound query = some (status, chains) ∧
      (status.isOk = false ↔ Unjoinable query) ∧
      (status.isOk = true -> ∀ chain, chain ∈ chains ↔ IsMaximalChain query chain) := by
  rcases joinSubqueries_joins query order enough with ⟨status, chains, joined, joins⟩
  exact ⟨status, chains, joined, joins.fails_iff, joins.mem_iff⟩

/-- A query given by its subquery ids and their roots. -/
def linkedQuery (subqueries : List (Text × List Text)) : DelliciusQuery :=
  ⟨text "query", subqueries.map fun entry =>
    ⟨entry.1, entry.2, [], [], none, .notSet, .unspecified, none⟩, none⟩

/-- The example of the header: two subqueries share a child. -/
def diamondQuery : DelliciusQuery :=
  linkedQuery [(text "SQ1", []), (text "SQ2", [text "SQ1"]), (text "SQ3", [text "SQ1"]),
    (text "SQ4", [text "SQ2", text "SQ3"]), (text "SQ5", [text "SQ3"])]

theorem joinSubqueries_diamondQuery :
    (buildParentChildSubqueryMap diamondQuery).length < 4 ∧
    ∃ chains,
      joinSubqueries (.reversed Text) 4 diamondQuery = some (.okStatus, chains) ∧
      ∀ chain, chain ∈ chains ↔ IsMaximalChain diamondQuery chain := by
  have enough : (buildParentChildSubqueryMap diamondQuery).length < 4 := by decide
  refine ⟨enough, ?_⟩
  rcases joinSubqueries_chains diamondQuery (.reversed Text) enough with
    ⟨status, chains, joined, -, maximal⟩
  have evaluated : ∃ listed,
      joinSubqueries (.reversed Text) 4 diamondQuery = some (.okStatus, listed) := ⟨_, rfl⟩
  rcases evaluated with ⟨listed, evaluated⟩
  rw [joined] at evaluated
  cases evaluated
  exact ⟨chains, joined, maximal rfl⟩

/-! ## Subqueries that are not joined -/

/-- A subquery that is a root or is reached from one. -/
def Rooted (query : DelliciusQuery) (id : Text) : Prop :=
  ∃ root, IsRoot query root ∧ Relation.ReflTransGen (Links query) root id

lemma Rooted.child {parent child : Text} (rooted : Rooted query parent)
    (linked : Links query parent child) : Rooted query child := by
  rcases rooted with ⟨root, isRoot, reached⟩
  exact ⟨root, isRoot, reached.tail linked⟩

/-- Every subquery occurs in a chain. -/
def Covers (query : DelliciusQuery) (chains : List (List Text)) : Prop :=
  ∀ subquery ∈ query.subquery, ∃ chain ∈ chains, subquery.subqueryId ∈ chain

lemma IsMaximalChain.rooted {chain : List Text} (maximal : IsMaximalChain query chain)
    (inside : id ∈ chain) : Rooted query id := by
  rcases maximal.starts with ⟨root, head, isRoot⟩
  cases chain with
  | nil => cases head
  | cons first rest =>
    cases head
    exact ⟨root, isRoot, reflTransGen_of_isChain maximal.linked inside⟩

lemma exists_completes (filled : Filled map) (straight : Straight map path id) :
    ∃ rest, Completes map id rest := by
  induction counted : unmet map path using Nat.strongRecOn generalizing path id with
  | ind remaining ih =>
    cases found : map.lookup id with
    | none => exact ⟨[], (completes_of_leaf found).mpr rfl⟩
    | some children =>
      rcases exists_mem_of_ne_nil _ (filled id children found) with ⟨child, member⟩
      have once := nodup_append'.mp (straight [] (isChain_singleton id))
      have fresh : id ∉ path := fun met => once.2.2 met (.head _)
      have linked : Under map id child := ⟨children, found, member⟩
      have further := (straight_of_children once.1 fresh).mp straight child linked
      have fewer : unmet map (path ++ [id]) < remaining := by
        rw [<- counted]
        exact unmet_push found fresh
      rcases ih _ fewer further rfl with ⟨rest, completes⟩
      exact ⟨child :: rest, (completes_of_children found).mpr ⟨child, rest, rfl, linked, completes⟩⟩

lemma exists_isMaximalChain_append {way : List Text} (isRoot : IsRoot query root)
    (straight : ¬ ReachesCycle (Links query) root) (linked : (root :: way).IsChain (Links query)) :
    ∃ later, IsMaximalChain query (root :: way ++ later) := by
  have member := getLast_mem (cons_ne_nil root way)
  have straightHere : ¬ ReachesCycle (Links query) ((root :: way).getLast (cons_ne_nil _ _)) := by
    rintro ⟨node, later, cycle⟩
    exact straight ⟨node, (reflTransGen_of_isChain linked member).trans later, cycle⟩
  rcases exists_completes (filled_buildParentChildSubqueryMap query)
    (straight_iff.mpr straightHere) with ⟨rest, completes⟩
  rcases completes_iff.mp completes with ⟨linkedRest, ends⟩
  refine ⟨rest, ⟨root, rfl, isRoot⟩, ?_, ?_⟩
  · rcases isChain_cons_cases.mp linkedRest with rfl | ⟨child, later, rfl, first, linkedLater⟩
    · rw [append_nil]
      exact linked
    · apply isChain_append.mpr
      refine ⟨linked, linkedLater, ?_⟩
      intro last isLast head isHead
      cases isLast
      cases isHead
      exact first
  · intro last isLast
    cases rest with
    | nil =>
      rw [append_nil] at isLast
      cases isLast
      exact ends
    | cons child later =>
      rw [getLast?_append_of_ne_nil _ (cons_ne_nil _ _)] at isLast
      cases isLast
      exact ends

lemma exists_isMaximalChain (isRoot : IsRoot query root)
    (straight : ¬ ReachesCycle (Links query) root)
    (reached : Relation.ReflTransGen (Links query) root id) :
    ∃ chain, IsMaximalChain query chain ∧ id ∈ chain := by
  rcases exists_isChain_cons_of_relationReflTransGen reached with ⟨way, linked, arrives⟩
  rcases exists_isMaximalChain_append isRoot straight linked with ⟨later, maximal⟩
  refine ⟨root :: way ++ later, maximal, mem_append_left _ ?_⟩
  rw [<- arrives]
  exact getLast_mem _

/-- For every query and every order of iteration: `JoinSubqueries` fails or joins every subquery
exactly when it has to fail, or every subquery is a root or is reached from one. -/
theorem joinSubqueries_covers_iff (query : DelliciusQuery) (order : IterationOrder Text)
    {bound : Nat} (enough : (buildParentChildSubqueryMap query).length < bound) :
    ∃ status chains, joinSubqueries order bound query = some (status, chains) ∧
      ((status.isOk = true -> Covers query chains) ↔
        (Unjoinable query ∨ ∀ subquery ∈ query.subquery, Rooted query subquery.subqueryId)) := by
  rcases joinSubqueries_joins query order enough with ⟨status, chains, joined, joins⟩
  refine ⟨status, chains, joined, ?_⟩
  constructor
  · intro covered
    cases fine : status.isOk with
    | false => exact .inl (joins.fails_iff.mp fine)
    | true =>
      refine .inr ?_
      intro subquery member
      rcases covered fine subquery member with ⟨chain, listed, inside⟩
      exact ((joins.mem_iff fine chain).mp listed).rooted inside
  · rintro (unjoinable | rooted) fine
    · rw [joins.fails_iff.mpr unjoinable] at fine
      cases fine
    · intro subquery member
      rcases rooted subquery member with ⟨root, isRoot, reached⟩
      have straight : ¬ ReachesCycle (Links query) root := by
        intro cycle
        have failed := joins.fails_iff.mpr (.inr ⟨root, isRoot, cycle⟩)
        rw [fine] at failed
        cases failed
      rcases exists_isMaximalChain isRoot straight reached with ⟨chain, maximal, inside⟩
      exact ⟨chain, (joins.mem_iff fine chain).mpr maximal, inside⟩

theorem joinSubqueries_covers_diamondQuery :
    (buildParentChildSubqueryMap diamondQuery).length < 4 ∧
    ∃ chains,
      joinSubqueries (.listed Text) 4 diamondQuery = some (.okStatus, chains) ∧
      Covers diamondQuery chains := by
  have enough : (buildParentChildSubqueryMap diamondQuery).length < 4 := by decide
  refine ⟨enough, ?_⟩
  rcases joinSubqueries_covers_iff diamondQuery (.listed Text) enough with
    ⟨status, chains, joined, covers⟩
  have evaluated : ∃ listed,
      joinSubqueries (.listed Text) 4 diamondQuery = some (.okStatus, listed) := ⟨_, rfl⟩
  rcases evaluated with ⟨listed, evaluated⟩
  rw [joined] at evaluated
  cases evaluated
  refine ⟨chains, joined, covers.mpr (.inr ?_) rfl⟩
  have first : Rooted diamondQuery (text "SQ1") := ⟨text "SQ1", by decide, .refl⟩
  have second : Rooted diamondQuery (text "SQ2") := first.child (by decide)
  have third : Rooted diamondQuery (text "SQ3") := first.child (by decide)
  intro subquery member
  rcases List.mem_map.mp member with ⟨entry, listed, rfl⟩
  have ids : entry.1 = text "SQ1" ∨ entry.1 = text "SQ2" ∨ entry.1 = text "SQ3" ∨
      entry.1 = text "SQ4" ∨ entry.1 = text "SQ5" := by
    revert entry
    decide
  rcases ids with same | same | same | same | same
  all_goals simp only [same]
  · exact first
  · exact second
  · exact third
  · exact second.child (by decide)
  · exact third.child (by decide)

/-- One subquery is rooted in an id that no subquery has, two others in each other. -/
def danglingQuery : DelliciusQuery :=
  linkedQuery [(text "SQ1", []), (text "SQ2", [text "SQ9"]), (text "SQ3", [text "SQ4"]),
    (text "SQ4", [text "SQ3"])]

theorem joinSubqueries_drops_subqueries :
    ∃ chains,
      joinSubqueries (.listed Text) 4 danglingQuery = some (.okStatus, chains) ∧
      ¬ Covers danglingQuery chains := by
  refine ⟨[[text "SQ1"]], rfl, ?_⟩
  intro covered
  have dropped : ∃ chain ∈ [[text "SQ1"]], text "SQ2" ∈ chain :=
    covered ⟨text "SQ2", [text "SQ9"], [], [], none, .notSet, .unspecified, none⟩ (by decide)
  revert dropped
  decide

end Ecclesia.Query
