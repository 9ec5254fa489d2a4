import Ecclesia.StepPlanner.Accounting

namespace Ecclesia.StepPlanner

open Absl List
open RedPathContext (hasNoPredicate isStepless)
open Bounded (Ends)

/-!
# The account of a whole query

The contexts with one node name split into those without a predicate and the others.  The
former go to the object of the node, the latter to its members, and for each of them the
account says what a RedPath evaluated on its own would say.  The groups of all node names have
every context once, so that the accounts of the groups add up to the account of a step.
-/

variable {Object Iterable Properties : Type} (planner : QueryPlanner Object Iterable Properties)
  (options : RunOptions Properties)

lemma coe_flatMap {Item Element : Type} (items : List Item) (elements : Item -> List Element) :
    (items.flatMap elements : Multiset Element) =
      (items.map fun item => (elements item : Multiset Element)).sum := by
  induction items with
  | nil => rfl
  | cons item rest ih =>
    rw [flatMap_cons, map_cons, sum_cons, <- ih, Multiset.coe_add]

lemma sum_map_filter {Item Weight : Type} [AddCommMonoid Weight] (keep : Item -> Bool)
    (weight : Item -> Weight) (items : List Item) :
    ((items.filter keep).map weight).sum =
      (items.map fun item => if keep item then weight item else 0).sum := by
  induction items with
  | nil => rfl
  | cons item rest ih =>
    cases kept : keep item with
    | true => simp [kept, ih]
    | false => simp [kept, ih]

variable {contexts : List RedPathContext}

lemma pending_filter {resource : Object} (keep : RedPathContext -> Bool)
    (others : ∀ context ∈ contexts, keep context = false ->
      selectFrom planner options context.subqueryHandle resource context.redpathSteps = []) :
    pending planner options (resource, contexts.filter keep) =
      pending planner options (resource, contexts) := by
  induction contexts with
  | nil => rfl
  | cons context rest ih =>
    have later := ih fun other member => others other (mem_cons_of_mem context member)
    rw [filter_cons, pending_cons]
    cases kept : keep context with
    | true =>
      rw [if_pos rfl, pending_cons, later]
    | false =>
      rw [if_neg Bool.false_ne_true, others context (.head _) kept, later]
      exact (zero_add _).symm

/-- Contexts with and without a property make up all of them. -/
lemma pending_partition (resource : Object) (contexts : List RedPathContext)
    (keep : RedPathContext -> Bool) :
    pending planner options (resource, contexts.filter keep) +
        pending planner options (resource, contexts.filter fun context => !keep context) =
      pending planner options (resource, contexts) := by
  simp only [pending, sum_map_filter, <- sum_map_add]
  congr 1
  apply map_congr_left
  intro context _
  cases keep context with
  | true => simp
  | false => simp

section

variable {planner} {resource : Object} {nodeName : Text} {variant : RedfishVariant Object Iterable}

lemma selectStep_of_absent (absent : nodeSet planner resource nodeName = none)
    (predicate : Text) : selectStep planner resource (nodeName, predicate) = [] := by
  unfold selectStep
  rw [absent]

lemma selectStep_noPredicate (present : nodeSet planner resource nodeName = some variant) :
    selectStep planner resource (nodeName, []) = variant.object.toList := by
  unfold selectStep
  rw [present]
  rfl

lemma selectStep_predicate (present : nodeSet planner resource nodeName = some variant)
    {predicate : Text} (some : predicate.isEmpty = false) :
    selectStep planner resource (nodeName, predicate) =
      ((membersOf planner variant).filter (fulfills planner predicate)).map Prod.fst := by
  unfold selectStep
  rw [present]
  simp only [some, if_neg Bool.false_ne_true]

lemma step_of_named {context : RedPathContext} (only : context.OnlyRedPaths)
    (named : context.nodeName = nodeName) (steps : context.isStepless = false) :
    ∃ predicate rest, context.redpathSteps = (nodeName, predicate) :: rest ∧
      context.hasNoPredicate = predicate.isEmpty := by
  rw [only.nodeName] at named
  unfold isStepless at steps
  rw [only.hasNoPredicate]
  cases left : context.redpathSteps with
  | nil =>
    rw [left] at steps
    cases steps
  | cons step rest =>
    rw [left] at named
    refine ⟨step.2, rest, ?_, rfl⟩
    rw [<- named]
    rfl

lemma sum_wanted (present : nodeSet planner resource nodeName = some variant)
    {context : RedPathContext} (only : context.OnlyRedPaths) (named : context.nodeName = nodeName) :
    ((membersOf planner variant).map fun member =>
        if wants planner member context then
          (selectFrom planner options context.subqueryHandle member.1 context.redpathSteps.tail :
            Multiset (Selection Object))
        else 0).sum =
      if context.hasNoPredicate then 0
      else (selectFrom planner options context.subqueryHandle resource context.redpathSteps :
        Multiset (Selection Object)) := by
  have noneWanted : (getPredicate context.redpathSteps).isEmpty = true ->
      ((membersOf planner variant).map fun member =>
        if wants planner member context then
          (selectFrom planner options context.subqueryHandle member.1 context.redpathSteps.tail :
            Multiset (Selection Object))
        else 0).sum = 0 := by
    intro empty
    apply sum_eq_zero
    intro selected isSelected
    rcases mem_map.mp isSelected with ⟨member, _, same⟩
    rw [<- same, wants, List.isEmpty_iff.mp empty]
    rfl
  cases stepless : context.isStepless with
  | true =>
    have noSteps := List.isEmpty_iff.mp stepless
    have noPredicate : context.hasNoPredicate = true := by
      rw [only.hasNoPredicate, noSteps]
      rfl
    rw [noPredicate]
    apply noneWanted
    rw [noSteps]
    rfl
  | false =>
    rcases step_of_named only named stepless with ⟨predicate, rest, steps, kind⟩
    rw [kind]
    cases empty : predicate.isEmpty with
    | true =>
      apply noneWanted
      rw [steps]
      exact empty
    | false =>
      rw [steps, selectFrom_cons, selectStep_predicate present empty, coe_flatMap, map_map,
        sum_map_filter]
      congr 1
      apply map_congr_left
      intro member _
      simp only [wants, steps, getPredicate, tail_cons, Function.comp_apply]

variable {contexts : List RedPathContext}

section

variable (present : nodeSet planner resource nodeName = some variant)

include present

section

variable (only : ∀ context ∈ contexts, context.OnlyRedPaths)
  (named : ∀ context ∈ contexts, context.nodeName = nodeName)

include only named

lemma sum_wantedAt :
    ((membersOf planner variant).map (wantedAt planner options contexts)).sum =
      pending planner options
        (resource, contexts.filter fun context => !context.hasNoPredicate) := by
  induction contexts with
  | nil =>
    apply sum_eq_zero
    intro selected isSelected
    rcases mem_map.mp isSelected with ⟨member, _, same⟩
    exact same.symm
  | cons context rest ih =>
    have later := ih (fun other member => only other (mem_cons_of_mem context member))
      (fun other member => named other (mem_cons_of_mem context member))
    have first := sum_wanted options present (only context (.head _)) (named context (.head _))
    have split : ((membersOf planner variant).map
          (wantedAt planner options (context :: rest))).sum =
        ((membersOf planner variant).map fun member =>
          (if wants planner member context then
            (selectFrom planner options context.subqueryHandle member.1
              context.redpathSteps.tail : Multiset (Selection Object))
          else 0) + wantedAt planner options rest member).sum := by
      congr 1
      apply map_congr_left
      intro member _
      unfold wantedAt
      rw [filter_cons]
      cases wants planner member context with
      | true => rw [if_pos rfl, if_pos rfl, map_cons, sum_cons]
      | false => rw [if_neg Bool.false_ne_true, if_neg Bool.false_ne_true, zero_add]
    rw [split, sum_map_add, first, later, filter_cons]
    cases context.hasNoPredicate with
    | true => rw [if_pos rfl, Bool.not_true, if_neg Bool.false_ne_true, zero_add]
    | false =>
      rw [if_neg Bool.false_ne_true, Bool.not_false, if_pos rfl, pending_cons]

def Stopover.OnlyRedPaths (stopover : Stopover Object) : Prop :=
  ∀ context ∈ stopover.2, context.OnlyRedPaths

lemma tallying_surveyMember_accounted :
    Accounted (tallying (surveyMember planner options contexts) (membersOf planner variant))
      (Accounts
        (pending planner options (resource, contexts.filter fun context => !context.hasNoPredicate))
        (remaining planner options) Stopover.OnlyRedPaths) := by
  rw [<- sum_wantedAt options present only named]
  apply tallying_accounted
  · rfl
  · exact remaining_append planner options
  · intro member _
    exact surveyMember_accounted planner options only

end

lemma tallying_noPredicate_accounted {object : Object} (shown : variant.object = some object)
    (only : ∀ context ∈ contexts, context.OnlyRedPaths)
    (named : ∀ context ∈ contexts, context.nodeName = nodeName) :
    Accounted (tallying (advance planner options object)
        (contexts.filter hasNoPredicate))
      (Accounts (pending planner options (resource, contexts.filter hasNoPredicate))
        (fun next => pending planner options (object, next)) RedPathContext.OnlyRedPaths) := by
  apply tallying_advance_accounted
  · intro context member
    exact only context (mem_filter.mp member).1
  · intro context step rest member steps
    rcases mem_filter.mp member with ⟨isContext, noPredicate⟩
    have stepped : context.isStepless = false := by
      rw [isStepless, steps]
      rfl
    rcases step_of_named (only context isContext) (named context isContext) stepped with
      ⟨predicate, later, split, kind⟩
    have empty : predicate = [] := List.isEmpty_iff.mp (kind.symm.trans noPredicate)
    rw [split] at steps
    rcases cons.inj steps with ⟨_, sameRest⟩
    rw [split, selectFrom_cons, empty, selectStep_noPredicate present, shown, <- sameRest]
    simp only [Option.toList_some, flatMap_singleton]

lemma surveyVariant_accounted (only : ∀ context ∈ contexts, context.OnlyRedPaths)
    (named : ∀ context ∈ contexts, context.nodeName = nodeName) :
    Accounted (surveyVariant planner options resource contexts variant)
      (Accounts (pending planner options (resource, contexts)) (remaining planner options)
        Stopover.OnlyRedPaths) := by
  unfold surveyVariant
  have members := tallying_surveyMember_accounted options present only named
  by_cases allHave : (contexts.filter hasNoPredicate).isEmpty = true
  · have everyContext : (contexts.filter fun context => !context.hasNoPredicate) = contexts := by
      apply filter_eq_self.mpr
      intro context member
      have absent := filter_eq_nil_iff.mp (List.isEmpty_iff.mp allHave) context member
      simpa using absent
    rw [everyContext] at members
    simp only [if_pos allHave]
    exact members
  · simp only [if_neg allHave]
    cases shown : variant.object with
    | none =>
      apply Ends.pure
      constructor
      · have kept : pending planner options (resource, contexts.filter fun context =>
                !context.hasNoPredicate || context.isStepless) =
            pending planner options (resource, contexts) := by
          apply pending_filter
          intro context member dropped
          rcases Bool.or_eq_false_iff.mp dropped with ⟨noPredicate, stepped⟩
          rcases step_of_named (only context member) (named context member) stepped with
            ⟨predicate, rest, steps, kind⟩
          have empty : predicate = [] := by
            apply List.isEmpty_iff.mp
            rw [<- kind]
            simpa using noPredicate
          rw [steps, selectFrom_cons, empty, selectStep_noPredicate present, shown]
          rfl
        simp only [kept, Balanced, Tally.zero, remaining, map_nil, sum_nil, add_zero, zero_add]
      · exact forall_mem_nil _
    | some object =>
      apply Ends.bind (tallying_noPredicate_accounted options present shown only named)
      intro tallied accounts
      by_cases all : (contexts.filter hasNoPredicate).length = contexts.length
      · simp only [if_pos all]
        apply Ends.pure
        have everyContext : contexts.filter hasNoPredicate = contexts :=
          filter_sublist.eq_of_length all
        constructor
        · rw [remaining_singleton]
          have balanced := accounts.balanced
          rw [everyContext] at balanced
          exact balanced
        · intro stopover member
          rw [mem_singleton.mp member]
          exact accounts.fine
      · simp only [if_neg all]
        apply Ends.bind members
        intro further others
        apply Ends.pure
        constructor
        · rw [<- pending_partition planner options resource contexts
            hasNoPredicate, <- singleton_append, remaining_append,
            remaining_singleton]
          exact accounts.balanced.plus others.balanced
        · intro stopover member
          rcases mem_cons.mp member with first | later
          · rw [first]
            exact accounts.fine
          · exact others.fine stopover later

end

lemma surveyNodeName_accounted {group : Text × List RedPathContext}
    (only : ∀ context ∈ group.2, context.OnlyRedPaths)
    (named : ∀ context ∈ group.2, context.nodeName = group.1) :
    Accounted (surveyNodeName planner options resource group)
      (Accounts (pending planner options (resource, group.2)) (remaining planner options)
        Stopover.OnlyRedPaths) := by
  unfold surveyNodeName
  cases present : nodeSet planner resource group.1 with
  | none =>
    apply Ends.pure
    constructor
    · have kept : pending planner options
            (resource, group.2.filter isStepless) =
          pending planner options (resource, group.2) := by
        apply pending_filter
        intro context member stepped
        rcases step_of_named (only context member) (named context member) stepped with
          ⟨predicate, rest, steps, _⟩
        rw [steps, selectFrom_cons, selectStep_of_absent present]
        rfl
      simp only [kept, Balanced, Tally.zero, remaining, map_nil, sum_nil, add_zero, zero_add]
    · exact forall_mem_nil _
  | some variant => exact surveyVariant_accounted options present only named

end

lemma mem_groupsOf {group : Text × List RedPathContext}
    (isGroup : group ∈ groupsOf planner contexts) :
    ∀ context ∈ group.2, context ∈ contexts ∧ context.nodeName = group.1 := by
  intro context member
  unfold groupsOf deduplicateNodeNamesAcrossSubqueries at isGroup
  rcases mem_map.mp isGroup with ⟨name, _, same⟩
  subst same
  rw [HashMap.listAt_foldl_pushBack] at member
  rcases mem_append.mp member with before | grouped
  · cases before
  · rcases mem_filter.mp grouped with ⟨isContext, named⟩
    exact ⟨isContext, of_decide_eq_true named⟩

lemma groupsOf_perm (contexts : List RedPathContext) :
    ((groupsOf planner contexts).flatMap Prod.snd).Perm contexts := by
  unfold groupsOf deduplicateNodeNamesAcrossSubqueries
  simp only [flatMap_map, HashMap.listAt_foldl_pushBack]
  apply (List.Perm.flatMap_right _ (planner.nodeOrder.perm _)).trans
  apply flatMap_groups_perm RedPathContext.nodeName (HashMap.distinct _)
  intro context member
  exact (HashMap.mem_keys_foldl_pushBack _ _ _ _).mpr (.inr (mem_map_of_mem member))

lemma sum_groupsOf (resource : Object) (contexts : List RedPathContext) :
    ((groupsOf planner contexts).map fun group => pending planner options (resource, group.2)).sum =
      pending planner options (resource, contexts) := by
  have joined : ∀ groups : List (Text × List RedPathContext),
      (groups.map fun group => pending planner options (resource, group.2)).sum =
        pending planner options (resource, groups.flatMap Prod.snd) := by
    intro groups
    induction groups with
    | nil => rfl
    | cons group rest ih =>
      rw [map_cons, sum_cons, ih, flatMap_cons, pending_append]
  rw [joined]
  exact ((groupsOf_perm planner contexts).map _).sum_eq

variable {planner options}

lemma surveyStep_accounted {stopover : Stopover Object} (only : stopover.OnlyRedPaths) :
    Accounted (surveyStep planner options stopover)
      (Accounts (pending planner options stopover) (remaining planner options)
        Stopover.OnlyRedPaths) := by
  rcases stopover with ⟨resource, contexts⟩
  rw [<- sum_groupsOf]
  apply tallying_accounted
  · rfl
  · exact remaining_append planner options
  · intro group isGroup
    apply surveyNodeName_accounted
    · intro context member
      exact only context (mem_groupsOf planner isGroup context member).1
    · intro context member
      exact (mem_groupsOf planner isGroup context member).2

/-- By induction on the bound: nothing is pending when all steps have been surveyed. -/
lemma surveyFrom_accounted : ∀ (bound : Nat) {stopover : Stopover Object},
    stopover.OnlyRedPaths ->
      Accounted (surveyFrom planner options bound stopover)
        (Balanced (pending planner options stopover) 0) := by
  intro bound
  induction bound with
  | zero =>
    intro stopover _
    exact .exhausted trivial
  | succ bound ih =>
    intro stopover only
    rw [surveyFrom]
    split
    next empty =>
      apply Ends.pure
      rcases stopover with ⟨resource, contexts⟩
      have nothing : contexts = [] := List.isEmpty_iff.mp empty
      rw [nothing]
      exact .zero
    next =>
      apply Ends.bind (surveyStep_accounted only)
      intro tallied accounts
      apply adding_accounted (fun reached isReached => ih (accounts.fine reached isReached))
      exact accounts.balanced

lemma surveyRoot_accounted {serviceRoot : Object} {handle : LinkedHandle}
    (only : OnlyRedPaths handle) :
    Accounted (surveyRoot planner options serviceRoot handle)
      (Accounts (selectFromRoot planner options serviceRoot handle : Multiset (Selection Object))
        (fun contexts => pending planner options (serviceRoot, contexts))
        RedPathContext.OnlyRedPaths) := by
  unfold surveyRoot selectFromRoot
  by_cases isChild : handle.isChildSubquery = true
  · simp only [if_pos isChild]
    apply Ends.pure
    constructor
    · exact Balanced.zero
    · exact forall_mem_nil _
  · simp only [if_neg isChild]
    by_cases atRoot : (getNode (stepsOf options handle)).isEmpty = true
    · simp only [if_pos atRoot]
      rw [tallying_singleton]
      apply advance_accounted planner options
      · exact only
      · intro step rest steps
        simp only at steps
        rw [steps, tail_cons]
    · simp only [if_neg atRoot]
      apply Ends.pure
      constructor
      · rw [pending_singleton]
        exact Balanced.refl
      · intro context member
        rw [mem_singleton.mp member]
        exact only

/-- What a query selects is accounted for: it is selected or lost, and whatever else is selected
is extra. -/
lemma survey_accounted {serviceRoot : Object}
    (only : ∀ handle ∈ planner.subqueryHandles, OnlyRedPaths handle) (bound : Nat) :
    Accounted (survey planner options bound serviceRoot)
      (Balanced (selections planner options serviceRoot : Multiset (Selection Object)) 0) := by
  unfold survey selections
  rw [coe_flatMap]
  have roots : Accounted (tallying (surveyRoot planner options serviceRoot) planner.subqueryHandles)
      (Accounts (planner.subqueryHandles.map fun handle =>
          (selectFromRoot planner options serviceRoot handle : Multiset (Selection Object))).sum
        (fun contexts => pending planner options (serviceRoot, contexts))
        RedPathContext.OnlyRedPaths) := by
    apply tallying_accounted
    · exact pending_nil planner options serviceRoot
    · exact pending_append planner options serviceRoot
    · intro handle member
      exact surveyRoot_accounted (only handle member)
  apply Ends.bind roots
  intro tallied accounts
  have onlyRedPaths : Stopover.OnlyRedPaths (serviceRoot, tallied.1) := accounts.fine
  apply Ends.bind (surveyFrom_accounted bound onlyRedPaths)
  intro further balanced
  exact .pure (accounts.balanced.trans balanced)

end Ecclesia.StepPlanner
