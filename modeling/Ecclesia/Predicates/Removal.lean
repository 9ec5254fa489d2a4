import Ecclesia.Predicates.VariableSubstitution
import Mathlib.Data.List.Forall2

namespace Ecclesia.Predicates

open Absl List

/-!
# What is left without unpopulated variables

A child that is kept is read with the operator in front of it.  The index into the logical
operators then stands at the operator in front of the next child, whatever was dropped before:
it counts every child but the first that was kept.
-/

/-- A comparison or an existence check. -/
def RelationalExpression.isLeaf (relexp : RelationalExpression) : Bool :=
  !relexp.relOperator.isEmpty || !relexp.propertyName.isEmpty

/-- Only a comparison can have a variable. -/
def RelationalExpression.isPopulated (relexp : RelationalExpression) : Bool :=
  relexp.relOperator.isEmpty || !relexp.rhs.contains '$'

mutual

def PredicateObject.conditions : PredicateObject -> List RelationalExpression
  | .mk relexp _ childPredicates =>
    if relexp.isLeaf then [relexp] else conditionsOf childPredicates

def conditionsOf : List PredicateObject -> List RelationalExpression
  | [] => []
  | child :: rest => child.conditions ++ conditionsOf rest

end

/-- A leaf without a variable, or a group with such a leaf. -/
def PredicateObject.isKept (child : PredicateObject) : Bool :=
  child.conditions.any RelationalExpression.isPopulated

mutual

def PredicateObject.Joined : PredicateObject -> Prop
  | .mk _ logicalOperators childPredicates =>
    childPredicates.length <= logicalOperators.length + 1 ∧ GroupsJoined childPredicates

def GroupsJoined : List PredicateObject -> Prop
  | [] => True
  | child :: rest =>
    (child.relationalExpression.isLeaf = true ∨ child.Joined) ∧ GroupsJoined rest

end

/-- The children with the operators in front of them.  There is none in front of the
first. -/
def withOperators (logicalOperators : List Text) (childPredicates : List PredicateObject) :
    List (Text × PredicateObject) :=
  ([] :: logicalOperators).zip childPredicates

def keptOf (children : List (Text × PredicateObject)) : List (Text × PredicateObject) :=
  children.filter fun entry => entry.2.isKept

/-- What is kept of a child: a leaf as it is, and of a group its kept children with their operators.
-/
inductive Removed : PredicateObject -> PredicateObject -> Prop where
  | leaf {relexp : RelationalExpression} {logicalOperators : List Text}
      {childPredicates : List PredicateObject} (isLeaf : relexp.isLeaf = true) :
      Removed (.mk relexp logicalOperators childPredicates)
        (.mk relexp logicalOperators childPredicates)
  | group {relexp : RelationalExpression} {logicalOperators : List Text}
      {childPredicates children : List PredicateObject} (isGroup : relexp.isLeaf = false)
      (kept : List.Forall₂ (fun entry child => Removed entry.2 child)
        (keptOf (withOperators logicalOperators childPredicates)) children) :
      Removed (.mk relexp logicalOperators childPredicates)
        (.mk relexp
          ((keptOf (withOperators logicalOperators childPredicates)).tail.map Prod.fst) children)

/-- A child is kept without the leaves that have a variable. -/
structure Keeps (child kept : PredicateObject) : Prop where
  removed : Removed child kept
  conditions : kept.conditions = child.conditions.filter RelationalExpression.isPopulated

/-- What the turn of a child may leave of it. -/
def LeftOf (child : PredicateObject) : Option PredicateObject -> Prop
  | none => child.isKept = false
  | some kept => child.isKept = true ∧ Keeps child kept

def Ends (child : PredicateObject) : Prop :=
  ∃ outcome, keepChild child = .ok outcome ∧ LeftOf child outcome

/-- What is kept in a loop, one by one. -/
def KeptAs (entries : List (Text × PredicateObject)) (children : List PredicateObject) : Prop :=
  List.Forall₂ (fun entry child => Keeps entry.2 child) (keptOf entries) children

variable {child : PredicateObject}

lemma keptOf_dropped (dropped : child.isKept = false) (op : Text)
    (rest : List (Text × PredicateObject)) : keptOf ((op, child) :: rest) = keptOf rest := by
  have unkept : ¬ ((op, child) : Text × PredicateObject).2.isKept = true := by
    rw [dropped]
    exact Bool.false_ne_true
  exact filter_cons_of_neg unkept

lemma keptOf_kept (isKept : child.isKept = true) (op : Text)
    (rest : List (Text × PredicateObject)) :
    keptOf ((op, child) :: rest) = (op, child) :: keptOf rest :=
  filter_cons_of_pos isKept

variable {entries : List (Text × PredicateObject)} {children : List PredicateObject}

lemma KeptAs.dropped (dropped : child.isKept = false) (op : Text)
    (kept : KeptAs entries children) : KeptAs ((op, child) :: entries) children := by
  unfold KeptAs
  rw [keptOf_dropped dropped]
  exact kept

lemma KeptAs.cons {child new : PredicateObject} {entries : List (Text × PredicateObject)}
    {children : List PredicateObject} (isKept : child.isKept = true) (keeps : Keeps child new)
    (op : Text) (kept : KeptAs entries children) :
    KeptAs ((op, child) :: entries) (new :: children) := by
  unfold KeptAs
  rw [keptOf_kept isKept]
  exact .cons keeps kept

/-- Behind the first child that is kept, the index stands at the operator in front of the
next child. -/
lemma keepChildren_later (logicalOperators : List Text) {rest : List PredicateObject} {index : Nat}
    (enough : index + rest.length <= logicalOperators.length) (ends : ∀ child ∈ rest, Ends child) :
    ∃ children, KeptAs ((logicalOperators.drop index).zip rest) children ∧
      keepChildren logicalOperators false index rest =
        .ok (children, (keptOf ((logicalOperators.drop index).zip rest)).map Prod.fst) := by
  induction rest generalizing index with
  | nil =>
    rw [zip_nil_right]
    exact ⟨[], .nil, rfl⟩
  | cons child rest ih =>
    have inside : index < logicalOperators.length := by
      rw [length_cons] at enough
      omega
    have behind : index + 1 + rest.length <= logicalOperators.length := by
      rw [length_cons] at enough
      omega
    rw [drop_eq_getElem_cons inside, zip_cons_cons]
    rcases ends child (.head _) with ⟨outcome, ran, left⟩
    rcases ih behind fun other member => ends other (mem_cons_of_mem child member) with
      ⟨children, kept, later⟩
    cases outcome with
    | none =>
      refine ⟨children, kept.dropped left _, ?_⟩
      rw [keptOf_dropped left, keepChildren, ran]
      exact later
    | some new =>
      refine ⟨new :: children, kept.cons left.1 left.2 _, ?_⟩
      have read := getElem?_eq_getElem inside
      rw [keptOf_kept left.1, keepChildren, ran]
      rw [read]
      rw [later]
      rfl

lemma keepChildren_first (logicalOperators : List Text) {rest : List PredicateObject}
    {index : Nat} (op : Text) (enough : index + rest.length <= logicalOperators.length + 1)
    (ends : ∀ child ∈ rest, Ends child) :
    ∃ children, KeptAs ((op :: logicalOperators.drop index).zip rest) children ∧
      keepChildren logicalOperators true index rest =
        .ok (children,
          (keptOf ((op :: logicalOperators.drop index).zip rest)).tail.map Prod.fst) := by
  induction rest generalizing index op with
  | nil =>
    exact ⟨[], .nil, rfl⟩
  | cons child rest ih =>
    rw [length_cons] at enough
    rw [zip_cons_cons]
    rcases ends child (.head _) with ⟨outcome, ran, left⟩
    have endsLater : ∀ other ∈ rest, Ends other :=
      fun other member => ends other (mem_cons_of_mem child member)
    cases outcome with
    | none =>
      have skipped : ∃ children,
          KeptAs ((logicalOperators.drop index).zip rest) children ∧
            keepChildren logicalOperators true (index + 1) rest = .ok (children,
              (keptOf ((logicalOperators.drop index).zip rest)).tail.map Prod.fst) := by
        by_cases inside : index < logicalOperators.length
        · rw [drop_eq_getElem_cons inside]
          exact ih _ (by omega) endsLater
        · -- There is no operator left, and so no child.
          have empty : rest = [] := length_eq_zero_iff.mp (by omega)
          rw [empty, zip_nil_right]
          exact ⟨[], .nil, rfl⟩
      rcases skipped with ⟨children, kept, later⟩
      refine ⟨children, kept.dropped left _, ?_⟩
      rw [keptOf_dropped left, keepChildren, ran]
      exact later
    | some new =>
      have behind : index + rest.length <= logicalOperators.length := by omega
      rcases keepChildren_later logicalOperators behind endsLater with ⟨children, kept, later⟩
      refine ⟨new :: children, kept.cons left.1 left.2 _, ?_⟩
      rw [keptOf_kept left.1, keepChildren, ran]
      rw [later]
      rfl

variable {logicalOperators : List Text} {childPredicates : List PredicateObject}

lemma keepChildren_group (enough : childPredicates.length <= logicalOperators.length + 1)
    (ends : ∀ child ∈ childPredicates, Ends child) :
    ∃ children, KeptAs (withOperators logicalOperators childPredicates) children ∧
      keepChildren logicalOperators true 0 childPredicates = .ok (children,
        (keptOf (withOperators logicalOperators childPredicates)).tail.map Prod.fst) := by
  have fromStart : 0 + childPredicates.length <= logicalOperators.length + 1 := by
    rw [Nat.zero_add]
    exact enough
  exact keepChildren_first logicalOperators [] fromStart ends

lemma conditionsOf_kept (kept : KeptAs entries children) :
    conditionsOf children =
      (conditionsOf (entries.map Prod.snd)).filter RelationalExpression.isPopulated := by
  induction entries generalizing children with
  | nil =>
    cases kept
    rfl
  | cons entry rest ih =>
    rw [map_cons, conditionsOf, filter_append]
    unfold KeptAs at kept
    cases isKept : entry.2.isKept with
    | false =>
      rw [keptOf_dropped isKept] at kept
      have nothing : entry.2.conditions.filter RelationalExpression.isPopulated = [] := by
        rw [filter_eq_nil_iff]
        exact any_eq_false.mp isKept
      rw [nothing]
      exact ih kept
    | true =>
      rw [keptOf_kept isKept] at kept
      cases kept with
      | cons first later =>
        rw [conditionsOf, first.conditions, ih later]

lemma map_snd_withOperators (enough : childPredicates.length <= logicalOperators.length + 1) :
    (withOperators logicalOperators childPredicates).map Prod.snd = childPredicates :=
  map_snd_zip enough

lemma conditionsOf_eq_flatMap (childPredicates : List PredicateObject) :
    conditionsOf childPredicates = childPredicates.flatMap PredicateObject.conditions := by
  induction childPredicates with
  | nil => rfl
  | cons child rest ih =>
    rw [conditionsOf, ih, flatMap_cons]

lemma keptOf_eq_nil_iff (enough : childPredicates.length <= logicalOperators.length + 1) :
    keptOf (withOperators logicalOperators childPredicates) = [] ↔
      (conditionsOf childPredicates).any RelationalExpression.isPopulated = false := by
  have children := map_snd_withOperators enough
  rw [conditionsOf_eq_flatMap, any_flatMap, keptOf, filter_eq_nil_iff, any_eq_false]
  constructor
  · intro unkept child member
    rw [<- children] at member
    rcases mem_map.mp member with ⟨entry, listed, rfl⟩
    exact unkept entry listed
  · intro unkept entry member
    apply unkept
    rw [<- children]
    exact mem_map_of_mem member

variable {relexp : RelationalExpression}

lemma conditions_leaf (isLeaf : relexp.isLeaf = true) (logicalOperators : List Text)
    (childPredicates : List PredicateObject) :
    (PredicateObject.mk relexp logicalOperators childPredicates).conditions = [relexp] := by
  rw [PredicateObject.conditions, if_pos isLeaf]

lemma conditions_group (isGroup : relexp.isLeaf = false) (logicalOperators : List Text)
    (childPredicates : List PredicateObject) :
    (PredicateObject.mk relexp logicalOperators childPredicates).conditions =
      conditionsOf childPredicates := by
  rw [PredicateObject.conditions, isGroup]
  rfl

lemma ends_leaf (isLeaf : relexp.isLeaf = true) (logicalOperators : List Text)
    (childPredicates : List PredicateObject) :
    Ends (.mk relexp logicalOperators childPredicates) := by
  have kept : (PredicateObject.mk relexp logicalOperators childPredicates).isKept =
      relexp.isPopulated := by
    rw [PredicateObject.isKept, conditions_leaf isLeaf, any_cons, any_nil, Bool.or_false]
  have keepsLeaf (populated : relexp.isPopulated = true) :
      LeftOf (.mk relexp logicalOperators childPredicates)
        (some (.mk relexp logicalOperators childPredicates)) := by
    refine ⟨kept.trans populated, .leaf isLeaf, ?_⟩
    rw [conditions_leaf isLeaf, filter_cons_of_pos populated, filter_nil]
  unfold Ends
  rw [keepChild, strContains_dollar]
  cases operator : relexp.relOperator.isEmpty with
  | true =>
    have named : relexp.propertyName.isEmpty = false := by
      rw [RelationalExpression.isLeaf, operator] at isLeaf
      simpa using isLeaf
    rw [named]
    refine ⟨_, rfl, keepsLeaf ?_⟩
    rw [RelationalExpression.isPopulated, operator]
    rfl
  | false =>
    cases unset : relexp.rhs.contains '$' with
    | true =>
      refine ⟨none, rfl, ?_⟩
      rw [LeftOf, kept, RelationalExpression.isPopulated, operator, unset]
      rfl
    | false =>
      refine ⟨_, rfl, keepsLeaf ?_⟩
      rw [RelationalExpression.isPopulated, operator, unset]
      rfl

lemma ends_group (isGroup : relexp.isLeaf = false)
    (enough : childPredicates.length <= logicalOperators.length + 1)
    (ends : ∀ child ∈ childPredicates, Ends child) :
    Ends (.mk relexp logicalOperators childPredicates) := by
  rcases keepChildren_group enough ends with ⟨children, kept, ran⟩
  have noOperator : relexp.relOperator.isEmpty = true := by
    cases operator : relexp.relOperator.isEmpty with
    | true => rfl
    | false => simp [RelationalExpression.isLeaf, operator] at isGroup
  have noName : relexp.propertyName.isEmpty = true := by
    cases named : relexp.propertyName.isEmpty with
    | true => rfl
    | false => simp [RelationalExpression.isLeaf, named] at isGroup
  have turn : keepChild (.mk relexp logicalOperators childPredicates) =
      .ok (if children.isEmpty then none else some (.mk relexp
        ((keptOf (withOperators logicalOperators childPredicates)).tail.map Prod.fst)
        children)) := by
    rw [keepChild, noOperator, noName, ran]
    rfl
  refine ⟨_, turn, ?_⟩
  have whenEmpty := keptOf_eq_nil_iff enough
  rw [<- conditions_group isGroup logicalOperators childPredicates] at whenEmpty
  cases children with
  | nil =>
    exact whenEmpty.mp (forall₂_nil_right_iff.mp kept)
  | cons new others =>
    have removed := kept.imp fun _ _ keeps => keeps.removed
    refine ⟨?_, .group isGroup removed, ?_⟩
    · by_contra unkept
      have nothing := whenEmpty.mpr (Bool.eq_false_iff.mpr unkept)
      unfold KeptAs at kept
      rw [nothing] at kept
      cases kept
    · rw [conditions_group isGroup, conditions_group isGroup, conditionsOf_kept kept,
        map_snd_withOperators enough]

mutual

theorem ends_child (child : PredicateObject)
    (joined : child.relationalExpression.isLeaf = true ∨ child.Joined) : Ends child := by
  cases child with
  | mk relexp logicalOperators childPredicates =>
    cases isLeaf : relexp.isLeaf with
    | true => exact ends_leaf isLeaf logicalOperators childPredicates
    | false =>
      rcases joined with leaf | joined
      · exact absurd leaf (by rw [PredicateObject.relationalExpression, isLeaf]; decide)
      · exact ends_group isLeaf joined.1 (ends_children childPredicates joined.2)

theorem ends_children (childPredicates : List PredicateObject)
    (joined : GroupsJoined childPredicates) :
    ∀ child ∈ childPredicates, Ends child := by
  cases childPredicates with
  | nil =>
    exact forall_mem_nil _
  | cons first rest =>
    intro child member
    rcases mem_cons.mp member with isFirst | isLater
    · rw [isFirst]
      exact ends_child first joined.1
    · exact ends_children rest joined.2 child isLater

end

/-- Unpopulated variables are taken out without a read past the operators. The other leaves are
left, in their order, each behind another joined by the operator that was in front of it. -/
theorem removes_unpopulated :
    ∀ (relexp : RelationalExpression) (logicalOperators : List Text)
        (childPredicates : List PredicateObject),
      (PredicateObject.mk relexp logicalOperators childPredicates).Joined ->
        ∃ children,
          removeUnpopulatedExpressions (.mk relexp logicalOperators childPredicates) =
            .ok (.mk relexp
              ((keptOf (withOperators logicalOperators childPredicates)).tail.map Prod.fst)
              children) ∧
          List.Forall₂ (fun entry child => Removed entry.2 child)
            (keptOf (withOperators logicalOperators childPredicates)) children ∧
          conditionsOf children =
            (conditionsOf childPredicates).filter RelationalExpression.isPopulated := by
  intro relexp logicalOperators childPredicates joined
  have ends := ends_children childPredicates joined.2
  rcases keepChildren_group joined.1 ends with ⟨children, kept, ran⟩
  have left := conditionsOf_kept kept
  rw [map_snd_withOperators joined.1] at left
  refine ⟨children, ?_, kept.imp fun _ _ keeps => keeps.removed, left⟩
  rw [removeUnpopulatedExpressions, ran]
  rfl

/-- `A=$v` -/
def unset : PredicateObject :=
  .leaf ⟨text "A", text "=", text "$v", []⟩

/-- Two dropped children around a group, of which only the last child is kept. -/
theorem removes_unpopulated_nested :
    ∃ children,
      removeUnpopulatedExpressions (.group [text " and ", text " or "]
          [unset, .group [text " or "] [unset, .leaf ⟨[], [], [], text "B"⟩],
            .leaf ⟨text "C", text ">", text "1", []⟩]) =
        .ok (.group [text " or "] children) ∧
      conditionsOf children = [⟨[], [], [], text "B"⟩, ⟨text "C", text ">", text "1", []⟩] := by
  rcases removes_unpopulated ⟨[], [], [], []⟩ [text " and ", text " or "]
      [unset, .group [text " or "] [unset, .leaf ⟨[], [], [], text "B"⟩],
        .leaf ⟨text "C", text ">", text "1", []⟩]
      ⟨by decide, .inl rfl, .inr ⟨by decide, .inl rfl, .inl rfl, trivial⟩, .inl rfl, trivial⟩ with
    ⟨children, removed, _, left⟩
  exact ⟨children, removed, left⟩

/-- An existence check is kept whatever its right side says. -/
theorem keeps_existence_check :
    ∃ (tree kept : PredicateObject) (leaf : RelationalExpression),
      tree.Joined ∧ removeUnpopulatedExpressions tree = .ok kept ∧ leaf ∈ kept.conditions ∧
        leaf.rhs.contains '$' = true := by
  refine ⟨.group [] [.leaf ⟨[], [], text "$v", text "A"⟩],
    .group [] [.leaf ⟨[], [], text "$v", text "A"⟩], ⟨[], [], text "$v", text "A"⟩, ?_, rfl, ?_,
    rfl⟩
  · exact ⟨by decide, .inl rfl, trivial⟩
  · exact (.head _)

end Ecclesia.Predicates
