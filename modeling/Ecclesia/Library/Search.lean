import Mathlib.Logic.Hydra
import Mathlib.Tactic.Abel

namespace Ecclesia

open List

/-!
# Breadth first search with a state

A queue of items is worked off from the front.  Every item has a list of edges.
Following an edge changes a state that is threaded through the whole search,
may change the item at hand, and appends the items it finds to the back of the
queue; or it ends the search at once.  An item may be found any number of
times and by any number of edges, so the only bound is the rank, which falls
from an item to its edges and from an edge to the items found.

The results are rules for whole searches: an invariant rule, a rule for the
states that are met, a conservation law for what a search collects, and two
comparisons between searches.
-/

structure Search (State Item Edge Exit : Type) where
  edges : Item -> List Edge
  follow : State -> Item -> Edge -> Except Exit (State × Item × List Item)
  rank : Item -> Nat
  weight : Edge -> Nat
  weight_lt : ∀ item edge, edge ∈ edges item -> weight edge < rank item
  rank_lt : ∀ state item edge after changed found,
    follow state item edge = .ok (after, changed, found) -> ∀ next ∈ found, rank next < weight edge

namespace Search

variable {State Item Edge Exit : Type}

variable (search : Search State Item Edge Exit)

/-- What is left to do, as a multiset of ranks. -/
def pending (remaining : List Edge) (queue : List Item) : Multiset Nat :=
  (remaining.map search.weight : Multiset Nat) + (queue.map search.rank : Multiset Nat)

lemma pending_follow {edge : Edge} {found : List Item}
    (falls : ∀ next ∈ found, search.rank next < search.weight edge)
    (remaining : List Edge) (queue : List Item) :
    Relation.CutExpand (· < ·) (search.pending remaining (queue ++ found))
      (search.pending (edge :: remaining) queue) := by
  refine ⟨(found.map search.rank : Multiset Nat), search.weight edge, ?_, ?_⟩
  · intro value member
    rcases mem_map.mp (Multiset.mem_coe.mp member) with ⟨next, listed, rfl⟩
    exact falls next listed
  · simp only [pending, map_cons, map_append, <- Multiset.coe_add,
      <- Multiset.cons_coe, <- Multiset.singleton_add]
    abel

lemma pending_take (next : Item) (queue : List Item) :
    Relation.CutExpand (· < ·) (search.pending (search.edges next) queue)
      (search.pending [] (next :: queue)) := by
  refine ⟨((search.edges next).map search.weight : Multiset Nat), search.rank next, ?_, ?_⟩
  · intro value member
    rcases mem_map.mp (Multiset.mem_coe.mp member) with ⟨edge, listed, rfl⟩
    exact search.weight_lt next edge listed
  · simp only [pending, map_cons, <- Multiset.cons_coe, <- Multiset.singleton_add]
    abel

/-- The search from an item with some of its edges left and a queue behind it. -/
def explore (search : Search State Item Edge Exit) (state : State) (item : Item) :
    List Edge -> List Item -> Except Exit State
  | edge :: remaining, queue =>
    match _followed : search.follow state item edge with
    | .error exit => .error exit
    | .ok (after, changed, found) => explore search after changed remaining (queue ++ found)
  | [], next :: queue => explore search state next (search.edges next) queue
  | [], [] => .ok state
termination_by remaining queue =>
  WellFounded.wrap (.cutExpand Nat.lt_wfRel.wf) (search.pending remaining queue)
decreasing_by
  · exact search.pending_follow (search.rank_lt _ _ _ _ _ _ _followed) remaining queue
  · exact search.pending_take next queue

def run (state : State) (item : Item) :
    Except Exit State :=
  search.explore state item (search.edges item) []

variable (search : Search State Item Edge Exit)

variable {state : State} {item : Item}

lemma explore_error {edge : Edge} {exit : Exit}
    (followed : search.follow state item edge = .error exit) (remaining : List Edge)
    (queue : List Item) : search.explore state item (edge :: remaining) queue = .error exit := by
  rw [explore]
  split
  · rename_i other same
    rw [followed] at same
    cases same
    rfl
  · rename_i after changed found same
    rw [followed] at same
    cases same

lemma explore_ok {after : State} {changed : Item} {edge : Edge} {found : List Item}
    (followed : search.follow state item edge = .ok (after, changed, found)) (remaining : List Edge)
    (queue : List Item) :
    search.explore state item (edge :: remaining) queue =
      search.explore after changed remaining (queue ++ found) := by
  rw [explore]
  split
  · rename_i other same
    rw [followed] at same
    cases same
  · rename_i after' changed' found' same
    rw [followed] at same
    cases same
    rfl

lemma explore_take (state : State) (item next : Item) (queue : List Item) :
    search.explore state item [] (next :: queue) =
      search.explore state next (search.edges next) queue := by
  rw [explore]

lemma explore_done (state : State) (item : Item) : search.explore state item [] [] = .ok state := by
  rw [explore]

/-- The search with a bound on its steps, which can be evaluated. -/
def exploreWithin : Nat -> State -> Item -> List Edge -> List Item ->
    Option (Except Exit State)
  | 0, _, _, _, _ => none
  | bound + 1, state, item, edge :: remaining, queue =>
    match search.follow state item edge with
    | .error exit => some (.error exit)
    | .ok (after, changed, found) => exploreWithin bound after changed remaining (queue ++ found)
  | bound + 1, state, _, [], next :: queue => exploreWithin bound state next (search.edges next) queue
  | _ + 1, state, _, [], [] => some (.ok state)

variable {remaining : List Edge} {queue : List Item}

lemma explore_of_exploreWithin (bound : Nat) {outcome : Except Exit State}
    (evaluated : search.exploreWithin bound state item remaining queue = some outcome) :
    search.explore state item remaining queue = outcome := by
  induction bound generalizing state item remaining queue with
  | zero => cases evaluated
  | succ bound ih =>
    cases remaining with
    | cons edge remaining =>
      simp only [exploreWithin] at evaluated
      cases followed : search.follow state item edge with
      | error exit =>
        rw [followed] at evaluated
        cases evaluated
        exact search.explore_error followed remaining queue
      | ok reached =>
        rcases reached with ⟨after, changed, found⟩
        rw [followed] at evaluated
        rw [search.explore_ok followed]
        exact ih evaluated
    | nil =>
      cases queue with
      | cons next queue =>
        rw [search.explore_take]
        exact ih evaluated
      | nil =>
        cases evaluated
        exact search.explore_done state item

lemma run_of_within (bound : Nat) {outcome : Except Exit State}
    (evaluated : search.exploreWithin bound state item (search.edges item) [] = some outcome) :
    search.run state item = outcome :=
  search.explore_of_exploreWithin bound evaluated

/-- How a search ends: with its last state, or at an edge that ends it. -/
def EndsWithin (Holds : State -> Item -> List Edge -> List Item -> Prop)
    (outcome : Except Exit State) : Prop :=
  match outcome with
  | .ok final => ∃ last, Holds final last [] []
  | .error exit => ∃ state item edge remaining queue,
      Holds state item (edge :: remaining) queue ∧ search.follow state item edge = .error exit

/-- An invariant of the single steps holds wherever the search comes. -/
lemma explore_invariant {Holds : State -> Item -> List Edge -> List Item -> Prop}
    (follows : ∀ state item edge remaining queue after changed found,
      Holds state item (edge :: remaining) queue ->
      search.follow state item edge = .ok (after, changed, found) ->
        Holds after changed remaining (queue ++ found))
    (takes : ∀ state item next queue, Holds state item [] (next :: queue) ->
      Holds state next (search.edges next) queue) (start : Holds state item remaining queue) :
    search.EndsWithin Holds (search.explore state item remaining queue) := by
  fun_induction search.explore state item remaining queue with
  | case1 state item edge remaining queue exit followed =>
    exact ⟨state, item, edge, remaining, queue, start, followed⟩
  | case2 state item edge remaining queue after changed found followed ih =>
    exact ih (follows _ _ _ _ _ _ _ _ start followed)
  | case3 state item next queue ih =>
    exact ih (takes _ _ _ _ start)
  | case4 state item =>
    exact ⟨item, start⟩

/-- The places a search comes to. -/
inductive Meets (state : State) (item : Item) (remaining : List Edge) (queue : List Item) :
    State -> Item -> List Edge -> List Item -> Prop where
  | start : Meets state item remaining queue state item remaining queue
  | follow {here there : State} {at_ changed : Item} {edge : Edge} {left : List Edge}
      {waiting found : List Item} (met : Meets state item remaining queue here at_ (edge :: left) waiting)
      (followed : search.follow here at_ edge = .ok (there, changed, found)) :
      Meets state item remaining queue there changed left (waiting ++ found)
  | take {here : State} {at_ next : Item} {waiting : List Item}
      (met : Meets state item remaining queue here at_ [] (next :: waiting)) :
      Meets state item remaining queue here next (search.edges next) waiting

lemma explore_meets (state : State) (item : Item) (remaining : List Edge) (queue : List Item) :
    search.EndsWithin (search.Meets state item remaining queue)
      (search.explore state item remaining queue) := by
  apply search.explore_invariant
  · intro here at_ edge left waiting there changed found met followed
    exact .follow met followed
  · intro here at_ next waiting met
    exact .take met
  · exact .start

/-- Wherever a search comes, it goes on as if it had started there. -/
lemma Meets.explore_eq {here : State} {at_ : Item} {left : List Edge} {waiting : List Item}
    (met : search.Meets state item remaining queue here at_ left waiting) :
    search.explore state item remaining queue = search.explore here at_ left waiting := by
  induction met with
  | start => rfl
  | follow met followed ih => rw [ih, search.explore_ok followed]
  | take met ih => rw [ih, search.explore_take]

lemma explore_eq_error_iff {exit : Exit} :
    search.explore state item remaining queue = .error exit ↔
      ∃ here at_ edge left waiting,
        search.Meets state item remaining queue here at_ (edge :: left) waiting ∧
          search.follow here at_ edge = .error exit := by
  constructor
  · intro explored
    have ends := search.explore_meets state item remaining queue
    rw [explored] at ends
    exact ends
  · rintro ⟨here, at_, edge, left, waiting, met, followed⟩
    rw [met.explore_eq, search.explore_error followed]

/-- A search to a clean state, backwards. An edge passes if all the items it finds are done, and an
item is done if all its edges pass. -/
lemma explore_backward {Sound Done : Item -> Prop} {Clean : State -> Prop}
    {Passes : Item -> Edge -> Prop} (sounds : ∀ state item edge after changed found, Sound item ->
      search.follow state item edge = .ok (after, changed, found) ->
        changed = item ∧ ∀ next ∈ found, Sound next)
    (passes : ∀ state item edge after changed found, Sound item ->
      search.follow state item edge = .ok (after, changed, found) -> Clean after ->
        Clean state ∧ ((∀ next ∈ found, Done next) -> Passes item edge))
    (dones : ∀ item, Sound item -> (∀ edge ∈ search.edges item, Passes item edge) -> Done item)
    {final : State} (sound : Sound item) (soundQueue : ∀ next ∈ queue, Sound next)
    (explored : search.explore state item remaining queue = .ok final) (clean : Clean final) :
    Clean state ∧ (∀ edge ∈ remaining, Passes item edge) ∧ ∀ next ∈ queue, Done next := by
  fun_induction search.explore state item remaining queue with
  | case1 state item edge remaining queue exit followed => cases explored
  | case2 state item edge remaining queue after changed found followed ih =>
    rcases sounds _ _ _ _ _ _ sound followed with ⟨rfl, soundFound⟩
    have soundLater : ∀ next ∈ queue ++ found, Sound next := by
      intro next member
      rcases mem_append.mp member with member | member
      · exact soundQueue next member
      · exact soundFound next member
    rcases ih sound soundLater explored with ⟨cleanAfter, passesLater, doneLater⟩
    rcases passes _ _ _ _ _ _ sound followed cleanAfter with ⟨cleanBefore, passesNow⟩
    refine ⟨cleanBefore, ?_, fun next member => doneLater next (mem_append_left _ member)⟩
    intro other member
    rcases mem_cons.mp member with rfl | member
    · exact passesNow fun next listed => doneLater next (mem_append_right _ listed)
    · exact passesLater other member
  | case3 state item next queue ih =>
    have soundNext := soundQueue next (.head _)
    rcases ih soundNext (fun other member => soundQueue other (.tail _ member))
      explored with ⟨cleanHere, passesNext, doneLater⟩
    refine ⟨cleanHere, nofun, ?_⟩
    intro other member
    rcases mem_cons.mp member with rfl | member
    · exact dones other soundNext passesNext
    · exact doneLater other member
  | case4 state item =>
    cases explored
    exact ⟨clean, nofun, nofun⟩

/-- What a search collects. Following an edge pays what it is due, partly through the items it
finds, and then the whole search pays everything. -/
lemma explore_collects {Piece : Type} (collected : State -> List Piece)
    (due : Item -> Edge -> List Piece) (Sound : Item -> Prop)
    (pays : ∀ state item edge, Sound item -> ∃ after changed found,
      search.follow state item edge = .ok (after, changed, found) ∧
      Sound changed ∧ due changed = due item ∧ (∀ next ∈ found, Sound next) ∧
      (collected after ++
        found.flatMap fun next => (search.edges next).flatMap (due next)).Perm
          (collected state ++ due item edge))
    (sound : Sound item) (soundQueue : ∀ next ∈ queue, Sound next) :
    ∃ final, search.explore state item remaining queue = .ok final ∧
      (collected final).Perm (collected state ++ remaining.flatMap (due item) ++
        queue.flatMap fun next => (search.edges next).flatMap (due next)) := by
  fun_induction search.explore state item remaining queue with
  | case1 state item edge remaining queue exit followed =>
    rcases pays state item edge sound with ⟨after, changed, found, ok, -⟩
    rw [followed] at ok
    cases ok
  | case2 state item edge remaining queue after changed found followed ih =>
    rcases pays state item edge sound with
      ⟨after', changed', found', ok, soundChanged, sameDue, soundFound, paid⟩
    rw [followed] at ok
    cases ok
    have soundLater : ∀ next ∈ queue ++ found, Sound next := by
      intro next member
      rcases mem_append.mp member with member | member
      · exact soundQueue next member
      · exact soundFound next member
    rcases ih soundChanged soundLater with ⟨final, explored, collects⟩
    refine ⟨final, explored, collects.trans ?_⟩
    rw [sameDue, flatMap_append, flatMap_cons]
    have moved := paid.append_right (remaining.flatMap (due item) ++
      queue.flatMap fun next => (search.edges next).flatMap (due next))
    refine .trans ?_ (moved.trans ?_)
    · rw [append_assoc, append_assoc]
      apply List.Perm.append_left _
      rw [<- append_assoc]
      exact perm_append_comm
    · rw [append_assoc, append_assoc, append_assoc]
  | case3 state item next queue ih =>
    rcases ih (soundQueue next (.head _))
      (fun other member => soundQueue other (.tail _ member)) with
      ⟨final, explored, collects⟩
    refine ⟨final, explored, collects.trans ?_⟩
    rw [flatMap_cons, flatMap_nil, append_nil, append_assoc]
  | case4 state item =>
    refine ⟨state, rfl, ?_⟩
    simp

/-- Two searches over the same items go together as long as they find the same
items at every edge. -/
lemma explore_lockstep {Other OtherExit : Type} (second : Search Other Item Edge OtherExit)
    (edges_eq : ∀ item, second.edges item = search.edges item)
    (Agree : State -> Other -> Item -> List Edge -> List Item -> Prop)
    (follows : ∀ state other item edge remaining queue,
      Agree state other item (edge :: remaining) queue ->
        ∃ after afterOther changed found,
          search.follow state item edge = .ok (after, changed, found) ∧
          second.follow other item edge = .ok (afterOther, changed, found) ∧
          Agree after afterOther changed remaining (queue ++ found))
    (takes : ∀ state other item next queue, Agree state other item [] (next :: queue) ->
      Agree state other next (search.edges next) queue) {other : Other}
    (start : Agree state other item remaining queue) :
    ∃ final finalOther last,
      search.explore state item remaining queue = .ok final ∧
      second.explore other item remaining queue = .ok finalOther ∧
      Agree final finalOther last [] [] := by
  fun_induction search.explore state item remaining queue generalizing other with
  | case1 state item edge remaining queue exit followed =>
    rcases follows _ _ _ _ _ _ start with ⟨after, afterOther, changed, found, ok, -⟩
    rw [followed] at ok
    cases ok
  | case2 state item edge remaining queue after changed found followed ih =>
    rcases follows _ _ _ _ _ _ start with ⟨after', afterOther, changed', found', ok, okOther, agree⟩
    rw [followed] at ok
    cases ok
    rw [second.explore_ok okOther]
    exact ih agree
  | case3 state item next queue ih =>
    rw [second.explore_take, edges_eq]
    exact ih (takes _ _ _ _ _ start)
  | case4 state item =>
    exact ⟨state, other, item, rfl, second.explore_done other item, start⟩

/-- The second list is the first one without some items that are idle. -/
inductive Thinned (Idle : Item -> Prop) : List Item -> List Item -> Prop where
  | nil : Thinned Idle [] []
  | keep {item : Item} {items kept : List Item} (thinned : Thinned Idle items kept) :
      Thinned Idle (item :: items) (item :: kept)
  | drop {item : Item} {items kept : List Item} (idle : Idle item)
      (thinned : Thinned Idle items kept) : Thinned Idle (item :: items) kept

namespace Thinned

variable {Idle : Item -> Prop}

lemma refl (items : List Item) : Thinned Idle items items := by
  induction items with
  | nil => exact .nil
  | cons item rest ih => exact .keep ih

lemma append {first firstKept second secondKept : List Item}
    (before : Thinned Idle first firstKept) (after : Thinned Idle second secondKept) :
    Thinned Idle (first ++ second) (firstKept ++ secondKept) := by
  induction before with
  | nil => exact after
  | keep _ ih => exact .keep ih
  | drop idle _ ih => exact .drop idle ih

lemma none {items : List Item} (idle : ∀ item ∈ items, Idle item) : Thinned Idle items [] := by
  induction items with
  | nil => exact .nil
  | cons item rest ih =>
    exact .drop (idle item (.head _)) (ih fun other member => idle other (.tail _ member))

end Thinned

/-- Two searches end in the same state if the second one leaves out idle items only. The edges of an
idle item change nothing and find idle items; those of a live one change the state in the same way.
-/
lemma explore_thinned {OtherExit : Type} (second : Search State Item Edge OtherExit)
    (edges_eq : ∀ item, second.edges item = search.edges item) (Idle Live : Item -> Prop)
    (idles : ∀ state item edge, Idle item -> edge ∈ search.edges item -> ∃ found,
      search.follow state item edge = .ok (state, item, found) ∧ ∀ next ∈ found, Idle next)
    (lives : ∀ state item edge, Live item -> edge ∈ search.edges item ->
      ∃ after found kept,
        search.follow state item edge = .ok (after, item, found) ∧
        second.follow state item edge = .ok (after, item, kept) ∧
        Thinned Idle found kept ∧ ∀ next ∈ kept, Live next) {kept : List Item}
    (own : ∀ edge ∈ remaining, edge ∈ search.edges item)
    (thinned : Thinned Idle queue kept) (liveKept : ∀ next ∈ kept, Live next) :
    (Live item -> ∃ final, search.explore state item remaining queue = .ok final ∧
      second.explore state item remaining kept = .ok final) ∧
    (Idle item -> ∃ final, search.explore state item remaining queue = .ok final ∧
      ∀ anywhere, second.explore state anywhere [] kept = .ok final) := by
  fun_induction search.explore state item remaining queue generalizing kept with
  | case1 state item edge remaining queue exit followed =>
    have listed := own edge (.head _)
    constructor
    · intro live
      rcases lives state item edge live listed with ⟨after, found, others, ok, -⟩
      rw [followed] at ok
      cases ok
    · intro idle
      rcases idles state item edge idle listed with ⟨found, ok, -⟩
      rw [followed] at ok
      cases ok
  | case2 state item edge remaining queue after changed found followed ih =>
    have listed := own edge (.head _)
    have later : ∀ other ∈ remaining, other ∈ search.edges item :=
      fun other member => own other (.tail _ member)
    constructor
    · intro live
      rcases lives state item edge live listed with
        ⟨after', found', others, ok, okSecond, thinnedFound, liveFound⟩
      rw [followed] at ok
      cases ok
      rw [second.explore_ok okSecond]
      refine (ih later (thinned.append thinnedFound) ?_).1 live
      intro next member
      rcases mem_append.mp member with member | member
      · exact liveKept next member
      · exact liveFound next member
    · intro idle
      rcases idles state item edge idle listed with ⟨found', ok, idleFound⟩
      rw [followed] at ok
      cases ok
      have dropped := thinned.append (.none idleFound)
      rw [append_nil] at dropped
      exact (ih later dropped liveKept).2 idle
  | case3 state item next queue ih =>
    cases thinned with
    | @keep _ _ others thinned =>
      have rest := ih (fun _ member => member) thinned
        fun other member => liveKept other (.tail _ member)
      rcases rest.1 (liveKept next (.head _)) with ⟨final, explored, same⟩
      rw [<- edges_eq] at same
      refine ⟨fun _ => ⟨final, explored, ?_⟩, fun _ => ⟨final, explored, fun anywhere => ?_⟩⟩
      · rw [second.explore_take, same]
      · rw [second.explore_take, same]
    | drop idle thinned =>
      rcases (ih (fun _ member => member) thinned liveKept).2 idle with ⟨final, explored, same⟩
      exact ⟨fun _ => ⟨final, explored, same item⟩, fun _ => ⟨final, explored, same⟩⟩
  | case4 state item =>
    cases thinned
    exact ⟨fun _ => ⟨state, rfl, second.explore_done state item⟩,
      fun _ => ⟨state, rfl, fun anywhere => second.explore_done state anywhere⟩⟩

end Search
end Ecclesia
