import Ecclesia.Library.Grouping
import Ecclesia.StepPlanner.Selections
import Mathlib.Tactic.Abel

namespace Ecclesia.StepPlanner

open Absl List
open Bounded (Ends)

/-!
# The account of a survey

What the contexts at a resource select is known from the start.  A step of the survey turns it
into what is selected in the step, what is lost in it and what the contexts after the step
select, and adds what is pending at the members that no predicate wants.  Each turn of a loop
keeps its own account, and the accounts add up.
-/

variable {Object Iterable Properties : Type}

/-- All subqueries from here on have RedPaths. -/
inductive OnlyRedPaths : LinkedHandle -> Prop where
  | mk {handle : SubqueryHandle} {children : List LinkedHandle} {redpath : Text}
      (resource : handle.subquery.resource = .redpath redpath)
      (below : ∀ child ∈ children, OnlyRedPaths child) :
      OnlyRedPaths (.mk handle children)

namespace OnlyRedPaths

variable {linked : LinkedHandle}

lemma resource (only : OnlyRedPaths linked) :
    ∃ redpath, linked.subquery.resource = .redpath redpath := by
  cases only with
  | mk resource below => exact ⟨_, resource⟩

lemma children (only : OnlyRedPaths linked) :
    ∀ child ∈ linked.childSubqueryHandles, OnlyRedPaths child := by
  cases only with
  | mk resource below => exact below

lemma hasRedPath (only : OnlyRedPaths linked) : linked.hasRedPath = true := by
  rcases only.resource with ⟨redpath, resource⟩
  simp only [LinkedHandle.hasRedPath, resource]

end OnlyRedPaths

def RedPathContext.OnlyRedPaths (context : RedPathContext) : Prop :=
  StepPlanner.OnlyRedPaths context.subqueryHandle

namespace RedPathContext.OnlyRedPaths

variable {context : RedPathContext}

lemma isEnd (only : context.OnlyRedPaths) :
    context.isEnd = isEndOfRedPath context.redpathSteps := by
  rcases StepPlanner.OnlyRedPaths.resource only with ⟨redpath, resource⟩
  simp only [RedPathContext.isEnd, resource]

lemma nodeName (only : context.OnlyRedPaths) : context.nodeName = getNode context.redpathSteps := by
  rcases StepPlanner.OnlyRedPaths.resource only with ⟨redpath, resource⟩
  simp only [RedPathContext.nodeName, resource]

lemma hasNoPredicate (only : context.OnlyRedPaths) :
    context.hasNoPredicate = (getPredicate context.redpathSteps).isEmpty := by
  rcases StepPlanner.OnlyRedPaths.resource only with ⟨redpath, resource⟩
  simp only [RedPathContext.hasNoPredicate, resource]

end RedPathContext.OnlyRedPaths

/-- What is pending before and after something has happened. -/
def Balanced (before after : Multiset (Selection Object)) (tally : Tally Object) : Prop :=
  before + tally.extra = after + tally.selected + tally.lost

namespace Balanced

variable {before after first second : Multiset (Selection Object)} {tally further : Tally Object}

lemma zero : Balanced (0 : Multiset (Selection Object)) 0 .zero := rfl

/-- Nothing has happened. -/
lemma refl : Balanced before before (.zero : Tally Object) := by
  simp [Balanced, Tally.zero]

/-- Two things happened side by side. -/
lemma plus (one : Balanced before after tally) (other : Balanced first second further) :
    Balanced (before + first) (after + second) (tally.plus further) := by
  calc before + first + (tally.extra + further.extra)
      = (before + tally.extra) + (first + further.extra) := by abel
    _ = (after + tally.selected + tally.lost) + (second + further.selected + further.lost) := by
        rw [one, other]
    _ = after + second + (tally.selected + further.selected) + (tally.lost + further.lost) := by
        abel

/-- One thing happened after the other. -/
lemma trans (one : Balanced before first tally) (other : Balanced first after further) :
    Balanced before after (tally.plus further) := by
  calc before + (tally.extra + further.extra)
      = (before + tally.extra) + further.extra := by abel
    _ = (first + further.extra) + tally.selected + tally.lost := by
        rw [one]
        abel
    _ = after + (tally.selected + further.selected) + (tally.lost + further.lost) := by
        rw [other]
        abel

end Balanced

/-- A loop or a turn of it has found something fine, and its account balances. -/
structure Accounts {Result : Type} (before : Multiset (Selection Object))
    (after : List Result -> Multiset (Selection Object)) (Fine : Result -> Prop)
    (tallied : Tallied Object (List Result)) : Prop where
  balanced : Balanced before (after tallied.1) tallied.2
  fine : ∀ result ∈ tallied.1, Fine result

/-- What is known of a run of the survey if it does not break down. -/
abbrev Accounted {Value : Type} (run : Bounded Breakdown Value) (holds : Value -> Prop) : Prop :=
  run.Ends True (fun _ => True) holds

variable {Item : Type} {before : Item -> Multiset (Selection Object)}

lemma tallying_accounted {Result : Type}
    {turn : Item -> Bounded Breakdown (Tallied Object (List Result))} {items : List Item}
    {after : List Result -> Multiset (Selection Object)} {Fine : Result -> Prop}
    (nothing : after [] = 0)
    (append : ∀ first second, after (first ++ second) = after first + after second)
    (each : ∀ item ∈ items, Accounted (turn item) (Accounts (before item) after Fine)) :
    Accounted (tallying turn items) (Accounts (items.map before).sum after Fine) := by
  apply Ends.foldlM (fun done => Accounts (done.map before).sum after Fine) items
  · constructor
    · rw [nothing]
      exact Balanced.zero
    · exact forall_mem_nil _
  · intro done item later state split holds
    apply Ends.bind (each item (split ▸ mem_append_right done (.head _)))
    intro tallied accounts
    apply Ends.pure
    constructor
    · rw [map_append, sum_append, append, map_singleton, sum_singleton]
      exact holds.balanced.plus accounts.balanced
    · intro result member
      rcases mem_append.mp member with before | found
      · exact holds.fine result before
      · exact accounts.fine result found

lemma adding_accounted {turn : Item -> Bounded Breakdown (Tally Object)}
    {first : Multiset (Selection Object)} :
    ∀ {items : List Item},
      (∀ item ∈ items, Accounted (turn item) (Balanced (before item) 0)) ->
      ∀ {start : Tally Object}, Balanced first (items.map before).sum start ->
        Accounted
          (items.foldlM
            (fun total item => do
              let further <- turn item
              return total.plus further)
            start)
          (Balanced first 0) := by
  intro items
  induction items with
  | nil =>
    intro _ start balanced
    exact .pure balanced
  | cons item rest ih =>
    intro each start balanced
    apply Ends.bind (Ends.bind (each item (.head _)) fun further single =>
        Ends.pure (show Balanced first (rest.map before).sum (start.plus further) from ?_))
    · intro total after
      exact ih (fun other member => each other (mem_cons_of_mem item member)) after
    · have after := single.plus (Balanced.refl : Balanced (rest.map before).sum _ _)
      rw [zero_add, Tally.plus_zero] at after
      exact balanced.trans after

variable (planner : QueryPlanner Object Iterable Properties) (options : RunOptions Properties)

section

variable (resource : Object)

lemma pending_nil : pending planner options (resource, []) = 0 := rfl

lemma pending_append (first second : List RedPathContext) :
    pending planner options (resource, first ++ second) =
      pending planner options (resource, first) + pending planner options (resource, second) := by
  simp only [pending, map_append, sum_append]

lemma pending_cons (context : RedPathContext) (rest : List RedPathContext) :
    pending planner options (resource, context :: rest) =
      selectFrom planner options context.subqueryHandle resource context.redpathSteps +
        pending planner options (resource, rest) := by
  simp only [pending, map_cons, sum_cons]

lemma pending_singleton (context : RedPathContext) :
    pending planner options (resource, [context]) =
      selectFrom planner options context.subqueryHandle resource context.redpathSteps := by
  simp only [pending, map_singleton, sum_singleton]

variable (handle : LinkedHandle)

lemma selectFrom_nil (resource : Object) :
    selectFrom planner options handle resource [] = selectAt planner options handle resource := by
  simp only [selectFrom, selectSteps, flatMap_singleton]

lemma selectFrom_cons (resource : Object) (step : RedPathStep) (rest : List RedPathStep) :
    selectFrom planner options handle resource (step :: rest) =
      (selectStep planner resource step).flatMap fun selected =>
        selectFrom planner options handle selected rest := by
  simp only [selectFrom, selectSteps, flatMap_assoc]

lemma selectAt_eq (resource : Object) :
    selectAt planner options handle resource =
      (handle.subqueryId, resource) ::
        if hasDataSet planner options handle.subquery resource then
          selectBelow planner options handle.childSubqueryHandles resource
        else [] := by
  cases handle with
  | mk handle children => rfl

lemma pending_childContexts (dataset : Option Nat) (resource : Object) :
    pending planner options (resource, childContexts options handle dataset) =
      selectBelow planner options handle.childSubqueryHandles resource := by
  unfold childContexts
  induction handle.childSubqueryHandles with
  | nil => rfl
  | cons child rest ih =>
    rw [map_cons, pending_cons, ih]
    rfl

end

/-- What is pending at some stopovers. -/
def remaining (stopovers : List (Stopover Object)) : Multiset (Selection Object) :=
  (stopovers.map (pending planner options)).sum

lemma remaining_append (first second : List (Stopover Object)) :
    remaining planner options (first ++ second) =
      remaining planner options first + remaining planner options second := by
  simp only [remaining, map_append, sum_append]

lemma remaining_singleton (stopover : Stopover Object) :
    remaining planner options [stopover] = pending planner options stopover := by
  simp only [remaining, map_singleton, sum_singleton]

lemma advance_accounted {resource : Object} {context : RedPathContext}
    (only : context.OnlyRedPaths) {before : Multiset (Selection Object)}
    (begins : ∀ step rest, context.redpathSteps = step :: rest ->
      before = selectFrom planner options context.subqueryHandle resource rest) :
    Accounted (advance planner options resource context)
      (Accounts before (fun next => pending planner options (resource, next))
        RedPathContext.OnlyRedPaths) := by
  unfold advance
  cases left : context.redpathSteps with
  | nil => exact .throw trivial
  | cons step rest =>
    rw [begins step rest left]
    cases rest with
    | nil =>
      apply Ends.pure
      constructor
      · rw [selectFrom_nil, selectAt_eq]
        simp only [Balanced, Tally.zero, add_zero]
        cases hasDataSet planner options context.subqueryHandle.subquery resource with
        | false => rfl
        | true =>
          simp only [if_true]
          rw [pending_childContexts, <- Multiset.cons_coe, <- Multiset.singleton_add, add_comm]
      · intro next member
        cases present : hasDataSet planner options context.subqueryHandle.subquery resource with
        | false =>
          rw [present] at member
          cases member
        | true =>
          rw [present] at member
          rcases mem_map.mp member with ⟨child, isChild, same⟩
          subst same
          exact .children only child isChild
    | cons second later =>
      apply Ends.pure
      constructor
      · rw [pending_singleton]
        exact Balanced.refl
      · intro next member
        rw [mem_singleton.mp member]
        exact only

variable {contexts : List RedPathContext}

lemma tallying_advance_accounted (resource : Object)
    (before : RedPathContext -> Multiset (Selection Object))
    (only : ∀ context ∈ contexts, context.OnlyRedPaths)
    (begins : ∀ context step rest, context ∈ contexts -> context.redpathSteps = step :: rest ->
      before context = selectFrom planner options context.subqueryHandle resource rest) :
    Accounted (tallying (advance planner options resource) contexts)
      (Accounts (contexts.map before).sum (fun next => pending planner options (resource, next))
        RedPathContext.OnlyRedPaths) := by
  apply tallying_accounted
  · exact pending_nil planner options resource
  · exact pending_append planner options resource
  · intro context member
    exact advance_accounted planner options (only context member)
      fun step rest => begins context step rest member

/-- Whether the predicate of a context is fulfilled by a member. -/
def wants (member : Object × Nat × Nat) (context : RedPathContext) : Bool :=
  fulfills planner (getPredicate context.redpathSteps) member

variable {member : Object × Nat × Nat}

lemma passesPredicate_eq {context : RedPathContext} {passed : Bool}
    (tested : passesPredicate planner member.1 member.2.1 member.2.2 context = .ok passed) :
    wants planner member context = passed := by
  unfold passesPredicate at tested
  unfold wants fulfills
  split at tested
  next value evaluated =>
    rw [evaluated]
    exact Except.ok.inj tested
  next status evaluated =>
    rw [evaluated]
    exact Except.ok.inj tested
  next what evaluated => cases tested

lemma executePredicateFromEachSubquery_eq : ∀ {contexts filtered : List RedPathContext},
      executePredicateFromEachSubquery planner member.1 member.2.1 member.2.2 contexts =
        .ok filtered -> filtered = contexts.filter (wants planner member) := by
  intro contexts
  induction contexts with
  | nil =>
    intro filtered executed
    exact (Except.ok.inj executed).symm
  | cons context rest ih =>
    intro filtered executed
    rw [executePredicateFromEachSubquery] at executed
    cases tested : passesPredicate planner member.1 member.2.1 member.2.2 context with
    | error what =>
      rw [tested] at executed
      cases executed
    | ok passed =>
      rw [tested] at executed
      cases others : executePredicateFromEachSubquery planner member.1 member.2.1 member.2.2
          rest with
      | error what =>
        rw [others] at executed
        cases executed
      | ok kept =>
        rw [others] at executed
        have same := Except.ok.inj executed
        rw [<- same, ih others, filter_cons, passesPredicate_eq planner tested]

/-- What the contexts that want a member select there with their later steps. -/
def wantedAt (contexts : List RedPathContext) (member : Object × Nat × Nat) :
    Multiset (Selection Object) :=
  ((contexts.filter (wants planner member)).map fun context =>
    (selectFrom planner options context.subqueryHandle member.1 context.redpathSteps.tail :
      Multiset (Selection Object))).sum

lemma surveyMember_accounted (only : ∀ context ∈ contexts, context.OnlyRedPaths) :
    Accounted (surveyMember planner options contexts member)
      (Accounts (wantedAt planner options contexts member) (remaining planner options)
        fun stopover => ∀ context ∈ stopover.2, context.OnlyRedPaths) := by
  unfold surveyMember
  cases executed : executePredicateFromEachSubquery planner member.1 member.2.1 member.2.2
      contexts with
  | error what => exact .throw trivial
  | ok filtered =>
    have passing := executePredicateFromEachSubquery_eq planner executed
    cases filtered with
    | nil =>
      apply Ends.pure
      constructor
      · rw [wantedAt, <- passing, remaining_singleton]
        simp only [Balanced, Tally.zero, map_nil, sum_nil, add_zero, zero_add]
      · intro stopover isMember
        rw [mem_singleton.mp isMember]
        exact only
    | cons first others =>
      have onlyFiltered : ∀ context ∈ first :: others, context.OnlyRedPaths := by
        intro context isContext
        rw [passing] at isContext
        exact only context (mem_filter.mp isContext).1
      have advanced := tallying_advance_accounted planner options member.1 (fun context =>
          selectFrom planner options context.subqueryHandle member.1 context.redpathSteps.tail)
        onlyFiltered
        (by
          intro context step rest _ steps
          rw [steps, tail_cons])
      apply Ends.bind advanced
      intro tallied accounts
      apply Ends.pure
      constructor
      · rw [wantedAt, <- passing, remaining_singleton]
        exact accounts.balanced
      · intro stopover isMember
        rw [mem_singleton.mp isMember]
        exact accounts.fine

end Ecclesia.StepPlanner
