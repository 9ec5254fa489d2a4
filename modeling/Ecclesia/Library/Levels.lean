import Ecclesia.Library.Chain

namespace Ecclesia

open List Nat

/-!
# Breadth first search without a visited set

A queue of nodes is worked off from the front, and whatever comes after a node goes to its
back, also if it has been there before.  So the queue runs through one level after the other,
where a node stands in a level as often as there are ways to it.

A search that finds something finds it at the least distance.  A search that finds nothing
ends exactly if it does not come to a cycle.
-/

/-- What comes after a node, and whether a node is searched for.  There may be nodes that
cannot be examined. -/
structure LevelSearch (Node : Type) where
  examine : Node -> Option Bool
  next : Node -> List Node

namespace LevelSearch

variable {Node : Type} (search : LevelSearch Node)

/-- The search from a queue, with a bound on its turns. -/
def run : Nat -> List Node -> Option (Option Node)
  | 0, _ => none
  | _ + 1, [] => some none
  | turns + 1, front :: rest =>
    match search.examine front with
    | none => none
    | some true => some (some front)
    | some false => run turns (rest ++ search.next front)

def level (start : List Node) : Nat -> List Node
  | 0 => start
  | distance + 1 => (level start distance).flatMap search.next

def Passes (nodes : List Node) : Prop :=
  ∀ node ∈ nodes, search.examine node = some false

variable {search}

lemma run_mono {turns more : Nat} {queue : List Node} {outcome : Option Node}
    (enough : turns <= more) :
    search.run turns queue = some outcome -> search.run more queue = some outcome := by
  refine result_mono search.run (fun _ => rfl) ?_ enough queue outcome
  intro turns more ih queue outcome ended
  cases queue with
  | nil => exact ended
  | cons front rest =>
    rw [run] at ended ⊢
    cases examined : search.examine front with
    | none =>
      rw [examined] at ended
      cases ended
    | some isGoal =>
      rw [examined] at ended
      cases isGoal with
      | true => exact ended
      | false => exact ih _ _ ended

/-- What is passed over makes room for what comes after it. -/
lemma run_passes (first : List Node) : ∀ (rest : List Node) (turns : Nat),
    search.Passes first ->
      search.run (first.length + turns) (first ++ rest) =
        search.run turns (rest ++ first.flatMap search.next) := by
  induction first with
  | nil =>
    intro rest turns _
    rw [length_nil, Nat.zero_add, nil_append, flatMap_nil, append_nil]
  | cons node more ih =>
    intro rest turns passes
    have later := ih (rest ++ search.next node) turns fun other member =>
      passes other (mem_cons_of_mem node member)
    have oneMore : (node :: more).length + turns = (more.length + turns) + 1 := by
      rw [length_cons]
      omega
    rw [oneMore, cons_append, run, passes node (.head _)]
    rw [append_assoc, later, flatMap_cons, append_assoc]

lemma run_level (start : List Node) : ∀ distance : Nat,
    (∀ nearer, nearer < distance -> search.Passes (search.level start nearer)) ->
      ∃ turns,
        (∀ more, search.run (turns + more) start = search.run more (search.level start distance)) ∧
        ((∀ nearer, nearer < distance -> search.level start nearer ≠ []) -> distance <= turns) := by
  intro distance
  induction distance with
  | zero =>
    intro _
    refine ⟨0, ?_, fun _ => Nat.le_refl 0⟩
    intro more
    rw [Nat.zero_add]
    rfl
  | succ distance ih =>
    intro passes
    rcases ih fun nearer less => passes nearer (lt_succ_of_lt less) with ⟨turns, reaches, few⟩
    refine ⟨turns + (search.level start distance).length, ?_, ?_⟩
    · intro more
      have through := run_passes (search.level start distance) [] more
        (passes distance (lt_succ_self distance))
      rw [append_nil] at through
      rw [Nat.add_assoc, reaches, through]
      rfl
    · intro nonempty
      have enough := few fun nearer less => nonempty nearer (lt_succ_of_lt less)
      have some_ := length_pos_iff.mpr (nonempty distance (lt_succ_self distance))
      omega

lemma exists_first {nodes : List Node} (stops : ¬ search.Passes nodes) :
    ∃ before node after, nodes = before ++ node :: after ∧ search.Passes before ∧
      search.examine node ≠ some false := by
  induction nodes with
  | nil =>
    apply absurd _ stops
    exact forall_mem_nil _
  | cons node rest ih =>
    by_cases passed : search.examine node = some false
    · have stopsLater : ¬ search.Passes rest := by
        intro passes
        apply stops
        intro other member
        rcases mem_cons.mp member with rfl | inside
        · exact passed
        · exact passes other inside
      rcases ih stopsLater with ⟨before, found, after, rfl, passes, stopped⟩
      refine ⟨node :: before, found, after, rfl, ?_, stopped⟩
      intro other member
      rcases mem_cons.mp member with rfl | inside
      · exact passed
      · exact passes other inside
    · refine ⟨[], node, rest, rfl, ?_, passed⟩
      exact forall_mem_nil _

variable {node : Node} {distance : Nat}

variable {start : List Node}

lemma run_stop {before after : List Node}
    (passes : ∀ nearer, nearer < distance -> search.Passes (search.level start nearer))
    (here : search.level start distance = before ++ node :: after)
    (passesHere : search.Passes before) : ∃ turns queue, ∀ more,
      search.run (turns + (more + 1)) start = search.run (more + 1) (node :: queue) := by
  rcases run_level start distance passes with ⟨turns, reaches, _⟩
  refine ⟨turns + before.length, after ++ before.flatMap search.next, ?_⟩
  intro more
  rw [Nat.add_assoc, reaches, here, run_passes before (node :: after) (more + 1) passesHere]
  rfl

lemma run_finds
    (examined : ∀ distance node, node ∈ search.level start distance -> search.examine node ≠ none)
    (goal : ∃ distance node, node ∈ search.level start distance ∧ search.examine node = some true) :
    ∃ turns found distance, search.run turns start = some (some found) ∧
      found ∈ search.level start distance ∧ search.examine found = some true ∧
      ∀ nearer other, other ∈ search.level start nearer ->
        search.examine other = some true -> distance <= nearer := by
  classical
  have least := Nat.find_spec goal
  have nearest : ∀ nearer other, other ∈ search.level start nearer ->
      search.examine other = some true -> Nat.find goal <= nearer :=
    fun nearer other member isGoal => Nat.find_min' goal ⟨other, member, isGoal⟩
  generalize Nat.find goal = distance at least nearest
  have passes : ∀ nearer, nearer < distance -> search.Passes (search.level start nearer) := by
    intro nearer less node member
    cases outcome : search.examine node with
    | none => exact absurd outcome (examined nearer node member)
    | some isGoal =>
      cases isGoal with
      | false => rfl
      | true => exact absurd less (Nat.not_lt_of_le (nearest nearer node member outcome))
  rcases least with ⟨node, member, isGoal⟩
  have stops : ¬ search.Passes (search.level start distance) := by
    intro passed
    have wrong := passed node member
    rw [isGoal] at wrong
    cases wrong
  rcases exists_first stops with ⟨before, found, after, here, passesHere, stopped⟩
  have isFound : found ∈ search.level start distance := by
    rw [here]
    exact mem_append_right before (.head _)
  have foundGoal : search.examine found = some true := by
    cases outcome : search.examine found with
    | none => exact absurd outcome (examined distance found isFound)
    | some isGoal =>
      cases isGoal with
      | true => rfl
      | false => exact absurd outcome stopped
  rcases run_stop passes here passesHere with ⟨turns, queue, stop⟩
  refine ⟨turns + 1, found, distance, ?_, isFound, foundGoal, nearest⟩
  have ended := stop 0
  rw [run, foundGoal] at ended
  exact ended

lemma run_ends (passes : ∀ nearer, nearer < distance -> search.Passes (search.level start nearer))
    (empty : search.level start distance = []) : ∃ turns, search.run turns start = some none := by
  rcases run_level start distance passes with ⟨turns, reaches, _⟩
  refine ⟨turns + 1, ?_⟩
  rw [reaches, empty]
  rfl

/-- Without a goal the search ends exactly if it passes over all nodes and comes to an empty
level. -/
lemma run_ends_iff (noGoal : ∀ distance node, node ∈ search.level start distance ->
      search.examine node ≠ some true) :
    (∃ turns outcome, search.run turns start = some outcome) ↔
      (∀ distance, search.Passes (search.level start distance)) ∧
        ∃ distance, search.level start distance = [] := by
  constructor
  · rintro ⟨turns, outcome, ended⟩
    have passes : ∀ distance, search.Passes (search.level start distance) := by
      intro distance
      induction distance using Nat.strongRecOn with
      | ind distance ih =>
        by_contra stops
        rcases exists_first stops with ⟨before, node, after, here, passesHere, stopped⟩
        have member : node ∈ search.level start distance := by
          rw [here]
          exact mem_append_right before (.head _)
        rcases run_stop ih here passesHere with ⟨before, queue, stop⟩
        have late := stop turns
        rw [run_mono (by omega) ended, run] at late
        cases examined : search.examine node with
        | none =>
          rw [examined] at late
          cases late
        | some isGoal =>
          cases isGoal with
          | true => exact noGoal distance node member examined
          | false => exact stopped examined
    refine ⟨passes, ?_⟩
    by_contra endless
    push Not at endless
    rcases run_level start turns fun nearer _ => passes nearer with ⟨behind, reaches, few⟩
    have unfinished := reaches 0
    rw [Nat.add_zero, run_mono (few fun nearer _ => endless nearer) ended] at unfinished
    cases unfinished
  · rintro ⟨passes, distance, empty⟩
    rcases run_ends (fun nearer _ => passes nearer) empty with ⟨turns, ended⟩
    exact ⟨turns, none, ended⟩

variable (search) in
/-- One node comes after another one. -/
def Follows (node following : Node) : Prop := following ∈ search.next node

/-- A node is at a distance if so many steps lead to it. -/
inductive AtDistance {Node : Type} (Link : Node -> Node -> Prop) (start : Node) :
    Nat -> Node -> Prop where
  | here : AtDistance Link start 0 start
  | further {distance : Nat} {node following : Node} (before : AtDistance Link start distance node)
      (step : Link node following) : AtDistance Link start (distance + 1) following

variable {start : Node}

lemma mem_level_iff : ∀ {distance : Nat} {node : Node},
    node ∈ search.level [start] distance ↔ AtDistance search.Follows start distance node := by
  intro distance
  induction distance with
  | zero =>
    intro node
    rw [level, mem_singleton]
    constructor
    · rintro rfl
      exact .here
    · intro at_
      cases at_
      rfl
  | succ distance ih =>
    intro node
    rw [level, mem_flatMap]
    constructor
    · rintro ⟨before, member, step⟩
      exact .further (ih.mp member) step
    · intro at_
      cases at_ with
      | further before step => exact ⟨_, ih.mpr before, step⟩

variable {Link : Node -> Node -> Prop}

lemma AtDistance.reaches
    (at_ : AtDistance Link start distance node) : Relation.ReflTransGen Link start node := by
  induction at_ with
  | here => exact .refl
  | further _ step ih => exact .tail ih step

lemma exists_atDistance (reached : Relation.ReflTransGen Link start node) :
    ∃ distance, AtDistance Link start distance node := by
  induction reached with
  | refl => exact ⟨0, .here⟩
  | tail _ step ih =>
    rcases ih with ⟨distance, at_⟩
    exact ⟨distance + 1, .further at_ step⟩

lemma exists_atDistance_of_cycle (at_ : AtDistance Link start distance node)
    (cycle : Relation.TransGen Link node node) : ∀ more,
    ∃ other, AtDistance Link start (distance + more) other ∧
      Relation.TransGen Link other other := by
  intro more
  induction more with
  | zero => exact ⟨node, at_, cycle⟩
  | succ more ih =>
    rcases ih with ⟨other, far, round⟩
    rcases Relation.TransGen.head'_iff.mp round with ⟨following, step, back⟩
    exact ⟨following, .further far step, Relation.TransGen.tail'_iff.mpr ⟨other, back, step⟩⟩

lemma AtDistance.chain
    (at_ : AtDistance Link start distance node) : ∃ chain, chain.length = distance ∧
      (start :: chain).IsChain Link ∧ (start :: chain).getLast? = some node := by
  induction at_ with
  | here => exact ⟨[], rfl, isChain_singleton start, rfl⟩
  | @further distance node following _ step ih =>
    rcases ih with ⟨chain, length, linked, ends⟩
    refine ⟨chain ++ [following], ?_, ?_, ?_⟩
    · rw [length_append, length]
      rfl
    · refine isChain_append.mpr ⟨linked, isChain_singleton following, ?_⟩
      intro last isLast head isHead
      rw [ends] at isLast
      cases isLast
      cases isHead
      exact step
    · rw [<- cons_append, getLast?_append]
      rfl

lemma exists_level_nil_iff {nodes : List Node}
    (among : ∀ node, Relation.ReflTransGen search.Follows start node -> node ∈ nodes) :
    (∃ distance, search.level [start] distance = []) ↔ ¬ ReachesCycle search.Follows start := by
  constructor
  · rintro ⟨distance, empty⟩ ⟨node, reached, cycle⟩
    rcases exists_atDistance reached with ⟨nearer, at_⟩
    have stays : ∀ more, search.level [start] (distance + more) = [] := by
      intro more
      induction more with
      | zero => exact empty
      | succ more ih => rw [<- Nat.add_assoc, level, ih, flatMap_nil]
    rcases exists_atDistance_of_cycle at_ cycle distance with ⟨other, far, _⟩
    rw [Nat.add_comm, <- mem_level_iff, stays] at far
    cases far
  · intro straight
    refine ⟨nodes.length, ?_⟩
    by_contra nonempty
    rcases exists_mem_of_ne_nil _ nonempty with ⟨node, member⟩
    rcases (mem_level_iff.mp member).chain with ⟨chain, length, linked, _⟩
    apply straight
    apply reachesCycle_of_isChain linked
    intro once
    have inside : start :: chain ⊆ nodes :=
      fun other member => among other (reflTransGen_of_isChain linked member)
    have few := (once.subperm inside).length_le
    rw [length_cons, length] at few
    exact absurd few (not_succ_le_self _)

end LevelSearch

end Ecclesia
