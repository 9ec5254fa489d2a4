import Ecclesia.StepPlanner.Execution
import Mathlib.Algebra.BigOperators.Group.Multiset.Basic

namespace Ecclesia.StepPlanner

open Absl

/-!
# What RedPaths select

A RedPath is evaluated step by step: a step goes from a resource to the resource under the
node name, or to the members of the collection there, and a predicate keeps those that fulfil
it.  A subquery selects what its RedPath leads to, from the service root or from each resource
of its parent that has a data set.  Nothing is shared between subqueries here.

The planner evaluates the steps of all subqueries together.  The survey walks through the same
context nodes as the planner and keeps account of two ways to deviate: a member that fulfils
none of the predicates is walked on from with the same steps, and a node that is no object is
not looked at as a collection when one of the steps has no predicate.
-/

variable {Object Iterable Properties : Type}

/-- A call of `SubqueryHandle::Normalize`: a subquery id and a resource. -/
abbrev Selection (Object : Type) := Text × Object

section

variable (planner : QueryPlanner Object Iterable Properties) (options : RunOptions Properties)

def nodeSet (resource : Object) (nodeName : Text) : Option (RedfishVariant Object Iterable) :=
  let variant := planner.get resource nodeName {}
  if variant.status.isOk then some variant else none

def objectOf (variant : RedfishVariant Object Iterable) : Option Object :=
  if variant.status.isOk then variant.object else none

/-- The resources in a node set, each with its index and the size of the set. -/
def membersOf (variant : RedfishVariant Object Iterable) : List (Object × Nat × Nat) :=
  match variant.iterable with
  | none => variant.object.toList.map fun object => (object, 0, 1)
  | some iterable =>
    (List.range (planner.size iterable)).flatMap fun nodeIndex =>
      (objectOf (planner.index iterable nodeIndex)).toList.map fun object =>
        (object, nodeIndex, planner.size iterable)

def fulfills (predicate : Text) (member : Object × Nat × Nat) : Bool :=
  match Predicates.applyPredicateRule planner.numbers (planner.getContentAsJson member.1)
      ⟨predicate, member.2.1, member.2.2⟩ with
  | .ok fulfilled => fulfilled
  | .error _ => false

def selectStep (resource : Object) (step : RedPathStep) : List Object :=
  match nodeSet planner resource step.1 with
  | none => []
  | some variant =>
    if step.2.isEmpty then variant.object.toList
    else ((membersOf planner variant).filter (fulfills planner step.2)).map Prod.fst

def selectSteps (resource : Object) : List RedPathStep -> List Object
  | [] => [resource]
  | step :: rest =>
    (selectStep planner resource step).flatMap fun selected => selectSteps selected rest

/-- The steps of a subquery. -/
def stepsOf (handle : LinkedHandle) : List RedPathStep :=
  handle.handle.substituteVariables options.queryVariables

def hasDataSet (subquery : Subquery) (resource : Object) : Bool :=
  match planner.normalizer resource subquery options.flags.enableUrlAnnotation with
  | .ok _ => true
  | .error _ => false

mutual

/-- What a subquery and the ones below it select when it has come to a resource. -/
def selectAt : LinkedHandle -> Object -> List (Selection Object)
  | .mk handle children, resource =>
    (handle.subquery.subqueryId, resource) ::
      if hasDataSet planner options handle.subquery resource then
        selectBelow children resource
      else []

def selectBelow : List LinkedHandle -> Object -> List (Selection Object)
  | [], _ => []
  | child :: rest, resource =>
    (selectSteps planner resource (stepsOf options child)).flatMap (selectAt child) ++
      selectBelow rest resource

end

/-- What a subquery selects from a resource when these steps are left. -/
def selectFrom (handle : LinkedHandle) (resource : Object) (steps : List RedPathStep) :
    List (Selection Object) :=
  (selectSteps planner resource steps).flatMap (selectAt planner options handle)

/-- What a subquery selects in a whole query.  A first step without a node name stays at the
service root. -/
def selectFromRoot (serviceRoot : Object) (handle : LinkedHandle) : List (Selection Object) :=
  if handle.isChildSubquery then []
  else
    selectFrom planner options handle serviceRoot
      (if (getNode (stepsOf options handle)).isEmpty then (stepsOf options handle).tail
        else stepsOf options handle)

/-- What all RedPaths of a query select. -/
def selections (serviceRoot : Object) : List (Selection Object) :=
  planner.subqueryHandles.flatMap (selectFromRoot planner options serviceRoot)

end

/-- What is selected on the way, what no predicate wants, and what is lost at nodes not looked at.
-/
structure Tally (Object : Type) where
  selected : Multiset (Selection Object)
  extra : Multiset (Selection Object)
  lost : Multiset (Selection Object)

namespace Tally

def zero : Tally Object := ⟨0, 0, 0⟩

def plus (first second : Tally Object) : Tally Object :=
  ⟨first.selected + second.selected, first.extra + second.extra, first.lost + second.lost⟩

@[simp] lemma zero_plus (tally : Tally Object) : zero.plus tally = tally := by
  simp only [plus, zero, zero_add]

@[simp] lemma plus_zero (tally : Tally Object) : tally.plus zero = tally := by
  simp only [plus, zero, add_zero]

end Tally

/-- How a run can break down. -/
inductive Breakdown where
  | exception
  | undefinedBehaviour

/-- A result and the tally of what happened on the way to it. -/
abbrev Tallied (Object Result : Type) := Result × Tally Object

/-- A loop that appends what each turn gives to a list and adds up the tallies. -/
def tallying {Item Result : Type}
    (turn : Item -> Bounded Breakdown (Tallied Object (List Result))) (items : List Item) :
    Bounded Breakdown (Tallied Object (List Result)) :=
  items.foldlM
    (fun state item => do
      let (found, tally) <- turn item
      return (state.1 ++ found, state.2.plus tally))
    ([], .zero)

lemma tallying_singleton {Item Result : Type}
    (turn : Item -> Bounded Breakdown (Tallied Object (List Result))) (item : Item) :
    tallying turn [item] = turn item := by
  simp only [tallying, List.foldlM_cons, List.foldlM_nil, bind_pure, Tally.zero_plus]
  exact bind_pure (turn item)

/-- A resource and the contexts that are left to execute there. -/
abbrev Stopover (Object : Type) := Object × List RedPathContext

variable (planner : QueryPlanner Object Iterable Properties) (options : RunOptions Properties)

def RedPathContext.isStepless (context : RedPathContext) : Bool := context.redpathSteps.isEmpty

/-- What some contexts select from a resource. -/
def pending (stopover : Stopover Object) : Multiset (Selection Object) :=
  (stopover.2.map fun context =>
    (selectFrom planner options context.subqueryHandle stopover.1 context.redpathSteps :
      Multiset (Selection Object))).sum

def advance (resource : Object) (context : RedPathContext) :
    Bounded Breakdown (Tallied Object (List RedPathContext)) :=
  let handle := context.subqueryHandle
  if isEndOfRedPath context.redpathSteps then
    pure (if hasDataSet planner options handle.subquery resource then
        childContexts options handle none else [],
      { Tally.zero with selected := {(handle.subqueryId, resource)} })
  else
    match context.redpathSteps with
    | [] => throw .undefinedBehaviour
    | _ :: steps => pure ([{ context with redpathSteps := steps }], .zero)

/-- A member of a node set at which some contexts are tried. -/
def surveyMember (contexts : List RedPathContext) (member : Object × Nat × Nat) :
    Bounded Breakdown (Tallied Object (List (Stopover Object))) :=
  match executePredicateFromEachSubquery planner member.1 member.2.1 member.2.2 contexts with
  | .error _ => throw .exception
  | .ok [] =>
    pure ([(member.1, contexts)],
      { Tally.zero with extra := pending planner options (member.1, contexts) })
  | .ok filtered => do
      let (next, tally) <- tallying (advance planner options member.1) filtered
      return ([(member.1, next)], tally)

/-- The contexts with one node name at the node set of that name. -/
def surveyVariant (resource : Object) (contexts : List RedPathContext)
    (variant : RedfishVariant Object Iterable) :
    Bounded Breakdown (Tallied Object (List (Stopover Object))) :=
  let noPredicate := contexts.filter RedPathContext.hasNoPredicate
  if noPredicate.isEmpty then
    tallying (surveyMember planner options contexts) (membersOf planner variant)
  else
    match variant.object with
    | none =>
      pure ([], { Tally.zero with
        lost := pending planner options (resource, contexts.filter fun context =>
            !context.hasNoPredicate || context.isStepless) })
    | some object => do
        let (next, tally) <- tallying (advance planner options object) noPredicate
        if noPredicate.length = contexts.length then return ([(object, next)], tally)
        else
          let (others, further) <-
            tallying (surveyMember planner options contexts) (membersOf planner variant)
          return ((object, next) :: others, tally.plus further)

def surveyNodeName (resource : Object) (group : Text × List RedPathContext) :
    Bounded Breakdown (Tallied Object (List (Stopover Object))) :=
  match nodeSet planner resource group.1 with
  | none =>
    pure ([], { Tally.zero with
      lost := pending planner options (resource, group.2.filter RedPathContext.isStepless) })
  | some variant => surveyVariant planner options resource group.2 variant

/-- One step from a resource. -/
def surveyStep (stopover : Stopover Object) :
    Bounded Breakdown (Tallied Object (List (Stopover Object))) :=
  tallying (surveyNodeName planner options stopover.1) (groupsOf planner stopover.2)

/-- All steps from a resource. -/
def surveyFrom : Nat -> Stopover Object -> Bounded Breakdown (Tally Object)
  | 0, _ => .exhausted
  | bound + 1, stopover =>
    if stopover.2.isEmpty then pure .zero
    else do
      let (next, tally) <- surveyStep planner options stopover
      next.foldlM
        (fun total reached => do
          let further <- surveyFrom bound reached
          return total.plus further)
        tally

/-- A subquery at the beginning of a query. -/
def surveyRoot (serviceRoot : Object) (handle : LinkedHandle) :
    Bounded Breakdown (Tallied Object (List RedPathContext)) :=
  if handle.isChildSubquery then pure ([], .zero)
  else
    let context : RedPathContext := ⟨handle, none, stepsOf options handle⟩
    if (getNode context.redpathSteps).isEmpty then
      tallying (advance planner options serviceRoot) [context]
    else pure ([context], .zero)

/-- The survey of a whole query. -/
def survey (bound : Nat) (serviceRoot : Object) : Bounded Breakdown (Tally Object) := do
  let (contexts, tally) <- tallying (surveyRoot planner options serviceRoot) planner.subqueryHandles
  let further <- surveyFrom planner options bound (serviceRoot, contexts)
  return tally.plus further

end Ecclesia.StepPlanner
