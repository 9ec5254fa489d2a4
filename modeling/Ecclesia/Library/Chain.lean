import Ecclesia.Library.Bounded
import Mathlib.Data.List.Chain
import Mathlib.Data.List.Duplicate
import Mathlib.Data.Fintype.Card

namespace Ecclesia

open List
open Relation.TransGen (head'_iff tail'_iff)

/-!
# Chains of a relation

A chain is a list in which every element is related to the next one.  From a
start there is a chain that meets an element twice exactly when the start
leads to a cycle.

A container without a fixed order is a list of its elements, and whoever runs
through it gets the elements in some permutation.
-/

/-- An order in which the elements of a container come when it is iterated. -/
structure IterationOrder (Element : Type) where
  iterate : List Element -> List Element
  perm : ∀ elements, (iterate elements).Perm elements

lemma IterationOrder.mem_iterate {Element : Type} (order : IterationOrder Element)
    {element : Element} {elements : List Element} :
    element ∈ order.iterate elements ↔ element ∈ elements :=
  (order.perm elements).mem_iff

def IterationOrder.listed (Element : Type) : IterationOrder Element :=
  ⟨id, fun _ => .refl _⟩

def IterationOrder.reversed (Element : Type) : IterationOrder Element :=
  ⟨List.reverse, List.reverse_perm⟩

def IterationOrder.startingWith {Element : Type} [DecidableEq Element] (first : Element) :
    IterationOrder Element where
  iterate elements := if first ∈ elements then first :: elements.erase first else elements
  perm elements := by
    split
    · exact (List.perm_cons_erase ‹_›).symm
    · exact .refl _

/-- The elements of a kind come first. -/
def IterationOrder.preferring {Element : Type} (kind : Element -> Bool) :
    IterationOrder Element where
  iterate elements := elements.filter kind ++ elements.filter fun element => !kind element
  perm elements := List.filter_append_perm kind elements

lemma IterationOrder.exists_preferred {Element : Type} (kind : Element -> Bool)
    {elements : List Element} {element : Element} (member : element ∈ elements)
    (ofKind : kind element = true) : ∃ first rest,
    (IterationOrder.preferring kind).iterate elements = first :: rest ∧ kind first = true := by
  have inside : element ∈ elements.filter kind := mem_filter.mpr ⟨member, ofKind⟩
  cases found : elements.filter kind with
  | nil =>
    rw [found] at inside
    cases inside
  | cons first rest =>
    refine ⟨first, rest ++ elements.filter fun element => !kind element, ?_, ?_⟩
    · change elements.filter kind ++ _ = _
      rw [found, cons_append]
    · exact (mem_filter.mp (found ▸ mem_cons_self)).2

section

variable {Node : Type} {Link : Node -> Node -> Prop}

def ReachesCycle (Link : Node -> Node -> Prop) (start : Node) : Prop :=
  ∃ node, Relation.ReflTransGen Link start node ∧ Relation.TransGen Link node node

variable {start : Node} {chain : List Node}

section

variable (linked : (start :: chain).IsChain Link)

include linked

lemma reflTransGen_of_isChain {last : Node} (member : last ∈ start :: chain) :
    Relation.ReflTransGen Link start last := by
  induction chain generalizing start with
  | nil =>
    rw [mem_singleton.mp member]
  | cons next rest ih =>
    rcases mem_cons.mp member with rfl | member
    · exact .refl
    · rcases isChain_cons_cons.mp linked with ⟨first, later⟩
      exact .head first (ih later member)

lemma transGen_of_isChain (member : start ∈ chain) : Relation.TransGen Link start start := by
  cases chain with
  | nil => exact nomatch member
  | cons next rest =>
    rcases isChain_cons_cons.mp linked with ⟨first, later⟩
    exact .head' first (reflTransGen_of_isChain later member)

lemma reachesCycle_of_isChain (twice : ¬ (start :: chain).Nodup) : ReachesCycle Link start := by
  induction chain generalizing start with
  | nil => exact absurd (nodup_singleton start) twice
  | cons next rest ih =>
    by_cases member : start ∈ next :: rest
    · exact ⟨start, .refl, transGen_of_isChain linked member⟩
    · rcases isChain_cons_cons.mp linked with ⟨first, later⟩
      rcases ih later fun once => twice (nodup_cons.mpr ⟨member, once⟩) with ⟨node, reached, cycle⟩
      exact ⟨node, .head first reached, cycle⟩

end

/-- A node leads to a cycle exactly when some chain from it meets a node twice. -/
lemma reachesCycle_iff_isChain : ReachesCycle Link start ↔
      ∃ chain, (start :: chain).IsChain Link ∧ ¬ (start :: chain).Nodup := by
  constructor
  · rintro ⟨node, reached, cycle⟩
    rcases head'_iff.mp cycle with ⟨next, first, back⟩
    rcases exists_isChain_cons_of_relationReflTransGen back with ⟨round, linkedRound, ends⟩
    rcases exists_isChain_cons_of_relationReflTransGen reached with ⟨way, linkedWay, arrives⟩
    have again : node ∈ next :: round := by
      rw [<- ends]
      exact getLast_mem _
    refine ⟨way ++ next :: round, ?_, ?_⟩
    · refine isChain_append.mpr ⟨linkedWay, linkedRound, ?_⟩
      intro last isLast head isHead
      rw [getLast?_eq_some_getLast (cons_ne_nil _ _), arrives] at isLast
      cases isLast
      cases isHead
      exact first
    · intro once
      have before : node ∈ start :: way := by
        rw [<- arrives]
        exact getLast_mem _
      exact disjoint_of_nodup_append once before again
  · rintro ⟨chain, linked, twice⟩
    exact reachesCycle_of_isChain linked twice

variable [Fintype Node]

open Classical in
/-- How many nodes lead to a node. -/
noncomputable def ancestorCount (Link : Node -> Node -> Prop) (node : Node) : Nat :=
  (Finset.univ.filter fun other => Relation.TransGen Link other node).card

lemma ancestorCount_le_card (node : Node) : ancestorCount Link node <= Fintype.card Node :=
  Finset.card_le_univ _

lemma ancestorCount_lt (acyclic : ∀ node, ¬ Relation.TransGen Link node node) {parent child : Node}
    (link : Link parent child) : ancestorCount Link parent < ancestorCount Link child := by
  classical
  apply Finset.card_lt_card
  rw [Finset.ssubset_iff_of_subset]
  · exact ⟨parent, Finset.mem_filter.mpr ⟨Finset.mem_univ _, .single link⟩,
      fun member => acyclic parent (Finset.mem_filter.mp member).2⟩
  · intro other above
    rw [Finset.mem_filter] at above ⊢
    exact ⟨above.1, above.2.tail link⟩

lemma ancestorCount_lt_card (acyclic : ∀ node, ¬ Relation.TransGen Link node node)
    (node : Node) : ancestorCount Link node < Fintype.card Node := by
  classical
  apply Finset.card_lt_card
  rw [Finset.ssubset_univ_iff]
  intro all
  have member : node ∈ Finset.univ.filter fun other => Relation.TransGen Link other node := by
    rw [all]
    exact Finset.mem_univ node
  exact acyclic node (Finset.mem_filter.mp member).2

end

variable {Node : Type} (next : Node -> Option Node)

/-- Go on from a node for as long as there is a next one. -/
def walkToEnd : Nat -> Node -> Option Node
  | 0, _ => none
  | bound + 1, node =>
    match next node with
    | none => some node
    | some following => walkToEnd bound following

variable {next}

lemma walkToEnd_mono {bound more : Nat} {start last : Node} (enough : bound <= more) :
    walkToEnd next bound start = some last -> walkToEnd next more start = some last := by
  refine result_mono (walkToEnd next) (fun _ => rfl) ?_ enough start last
  intro bound more ih start last ended
  rw [walkToEnd] at ended ⊢
  cases first : next start with
  | none =>
    rw [first] at ended
    exact ended
  | some following =>
    rw [first] at ended
    exact ih following last ended

lemma isChain_of_walkToEnd : ∀ (bound : Nat) (start : Node),
    walkToEnd next bound start = none ->
      ∃ chain, chain.length = bound ∧
        (start :: chain).IsChain fun node following => next node = some following := by
  intro bound
  induction bound with
  | zero => exact fun start _ => ⟨[], rfl, isChain_singleton start⟩
  | succ bound ih =>
    intro start goesOn
    rw [walkToEnd] at goesOn
    cases first : next start with
    | none => simp [first] at goesOn
    | some following =>
      rw [first] at goesOn
      rcases ih following goesOn with ⟨chain, length, linked⟩
      exact ⟨following :: chain, by simp [length], isChain_cons_cons.mpr ⟨first, linked⟩⟩

lemma reachesCycle_following {start following : Node}
    (cycle : ReachesCycle (fun node after => next node = some after) start)
    (first : next start = some following) :
    ReachesCycle (fun node after => next node = some after) following := by
  rcases cycle with ⟨node, reached, round⟩
  rcases Relation.ReflTransGen.cases_head reached with rfl | ⟨other, step, later⟩
  · rcases head'_iff.mp round with ⟨other, step, back⟩
    cases first.symm.trans step
    exact ⟨following, .refl, tail'_iff.mpr ⟨start, back, first⟩⟩
  · cases first.symm.trans step
    exact ⟨node, later, round⟩

lemma not_reachesCycle_of_walkToEnd : ∀ (bound : Nat) (start last : Node),
    walkToEnd next bound start = some last ->
      ¬ ReachesCycle (fun node after => next node = some after) start := by
  intro bound
  induction bound with
  | zero =>
    intro start last ended
    cases ended
  | succ bound ih =>
    intro start last ended cycle
    rw [walkToEnd] at ended
    cases first : next start with
    | none =>
      rcases cycle with ⟨node, reached, round⟩
      rcases head'_iff.mp (.trans_right reached round) with ⟨following, step, _⟩
      exact Option.some_ne_none _ (step.symm.trans first)
    | some following =>
      rw [first] at ended
      exact ih following last ended (reachesCycle_following cycle first)

lemma walkToEnd_ends_iff [Finite Node] (start : Node) :
    (∃ bound last, walkToEnd next bound start = some last) ↔
      ¬ ReachesCycle (fun node after => next node = some after) start := by
  constructor
  · rintro ⟨bound, last, ended⟩
    exact not_reachesCycle_of_walkToEnd bound start last ended
  · intro straight
    cases nonempty_fintype Node with
    | intro finite =>
      cases walked : walkToEnd next (Fintype.card Node) start with
      | some last => exact ⟨Fintype.card Node, last, walked⟩
      | none =>
        rcases isChain_of_walkToEnd _ _ walked with ⟨chain, length, linked⟩
        apply absurd _ straight
        apply reachesCycle_of_isChain linked
        intro once
        have few := once.length_le_card
        rw [length_cons, length] at few
        exact absurd few (Nat.not_succ_le_self _)

end Ecclesia
