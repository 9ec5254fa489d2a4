import Ecclesia.Planner.Static

namespace Ecclesia.Planner

open Absl List

/-!
# What an expression makes available

An expression is meant to select the members that can be fetched and satisfy
its predicate, or the resource it leads to.  This is what it makes available
at a place, whatever happens to the other members.  The answer of the planner
can differ from it only through a turn that leaves the loop over the members.
-/

variable {World Object Iterable : Type}

def MemberTurn.pushed : MemberTurn Object Iterable -> Option (RedfishResponse Object Iterable)
  | .push response => some response
  | _ => none

/-- The turn does not leave the loop. -/
def MemberTurn.Stays (turn : MemberTurn Object Iterable) : Prop :=
  ∀ failure, turn ≠ .exit failure

def Verdict.selected : Verdict Object -> Option (RedfishResponse Object Iterable)
  | .accepted object => some (.ofObject (some object))
  | _ => none

lemma collectTurns_of_stays {turns : List (MemberTurn Object Iterable)}
    (stays : ∀ turn ∈ turns, turn.Stays) :
    collectTurns turns = .ok (turns.filterMap MemberTurn.pushed) := by
  induction turns with
  | nil => rfl
  | cons turn rest ih =>
    have later := ih fun other member => stays other (.tail _ member)
    cases turn with
    | next => exact later
    | push response =>
      rw [collectTurns, later]
      rfl
    | exit failure => exact absurd rfl (stays _ (.head _) failure)

/-- The first turn that leaves the loop decides. -/
lemma collectTurns_of_exit {before after : List (MemberTurn Object Iterable)}
    {failure : Failure} (stays : ∀ turn ∈ before, turn.Stays) :
    collectTurns (before ++ .exit failure :: after) = .error failure := by
  induction before with
  | nil => rfl
  | cons turn rest ih =>
    have later := ih fun other member => stays other (.tail _ member)
    cases turn with
    | next => exact later
    | push response =>
      rw [cons_append, collectTurns, later]
      rfl
    | exit other => exact absurd rfl (stays _ (.head _) other)

lemma exists_first_exit (turns : List (MemberTurn Object Iterable)) :
    (∀ turn ∈ turns, turn.Stays) ∨
      ∃ before failure after, turns = before ++ .exit failure :: after ∧
        ∀ turn ∈ before, turn.Stays := by
  induction turns with
  | nil => exact .inl nofun
  | cons turn rest ih =>
    by_cases leaves : turn.Stays
    · rcases ih with stays | ⟨before, failure, after, rfl, stays⟩
      · refine .inl ?_
        intro other member
        rcases mem_cons.mp member with rfl | member
        · exact leaves
        · exact stays other member
      · refine .inr ⟨turn :: before, failure, after, rfl, ?_⟩
        intro other member
        rcases mem_cons.mp member with rfl | member
        · exact leaves
        · exact stays other member
    · cases turn with
      | next => exact absurd nofun leaves
      | push response => exact absurd nofun leaves
      | exit failure => exact .inr ⟨[], failure, rest, rfl, nofun⟩

variable (planner : QueryPlanner World Object Iterable) (tree : ResourceTree Object Iterable)

lemma Verdict.turn_pushed (place : Place Object Iterable) (nodeIndex : Nat)
    (verdict : Verdict Object) :
    (verdict.turn planner place nodeIndex).pushed = verdict.selected := by
  cases verdict with
  | unavailable status =>
    simp only [Verdict.turn]
    split
    · rfl
    · split_ifs
      · rfl
      · rfl
  | nothing => rfl
  | broken failure => rfl
  | refused => rfl
  | accepted object => rfl

/-- The members of a collection that can be had and satisfy the predicate. -/
def availableMembers (place : Place Object Iterable) (params : GetParams) (newPredicate : Text)
    (iterable : Iterable) : List (RedfishResponse Object Iterable) :=
  (List.range (planner.views.size iterable)).filterMap fun nodeIndex =>
    (verdict planner tree place params newPredicate iterable nodeIndex).selected

def available (queryVariables : QueryVariables) (place : Place Object Iterable)
    (expression : RedPathExpression) : List (RedfishResponse Object Iterable) :=
  match membersFor place.redfishResponse expression with
  | some iterable =>
    match planner.substituteVariables expression.expression queryVariables with
    | .error _ => []
    | .ok newPredicate =>
      availableMembers planner tree place (paramsAt planner place expression) newPredicate iterable
  | none =>
    match place.redfishResponse.redfishObject with
    | none => []
    | some object =>
      match objectAnswer planner tree queryVariables place expression object with
      | .error _ => []
      | .ok responses => responses

variable {planner} {tree}

variable {place : Place Object Iterable}

lemma membersAnswer_of_stays {params : GetParams} {newPredicate : Text} {iterable : Iterable}
    (stays : ∀ nodeIndex, nodeIndex < planner.views.size iterable ->
      ((verdict planner tree place params newPredicate iterable nodeIndex).turn planner place
        nodeIndex).Stays) :
    membersAnswer planner tree place params newPredicate iterable =
      .ok (availableMembers planner tree place params newPredicate iterable) := by
  unfold membersAnswer availableMembers
  rw [collectTurns_of_stays]
  · rw [filterMap_map]
    congr 2
    funext nodeIndex
    exact Verdict.turn_pushed planner place nodeIndex _
  · intro turn member
    rcases mem_map.mp member with ⟨nodeIndex, listed, rfl⟩
    exact stays nodeIndex (mem_range.mp listed)

/-- The loop over the members answers with all that is available, or it is left
by one of them. -/
lemma membersAnswer_cases (place : Place Object Iterable) (params : GetParams)
    (newPredicate : Text) (iterable : Iterable) :
    membersAnswer planner tree place params newPredicate iterable =
        .ok (availableMembers planner tree place params newPredicate iterable) ∨
      ∃ nodeIndex failure, nodeIndex < planner.views.size iterable ∧
        (verdict planner tree place params newPredicate iterable nodeIndex).turn planner place
          nodeIndex = .exit failure ∧
        membersAnswer planner tree place params newPredicate iterable = .error failure := by
  rcases exists_first_exit ((List.range (planner.views.size iterable)).map fun nodeIndex =>
      (verdict planner tree place params newPredicate iterable nodeIndex).turn planner place
        nodeIndex) with stays | ⟨before, failure, after, split, stays⟩
  · refine .inl (membersAnswer_of_stays fun nodeIndex inside => ?_)
    exact stays _ (mem_map_of_mem (mem_range.mpr inside))
  · have leaving : MemberTurn.exit failure ∈ before ++ .exit failure :: after :=
      mem_append_right _ (.head _)
    rw [<- split] at leaving
    rcases mem_map.mp leaving with ⟨nodeIndex, listed, turned⟩
    refine .inr ⟨nodeIndex, failure, mem_range.mp listed, turned, ?_⟩
    rw [membersAnswer, split, collectTurns_of_exit stays]

/-- A turn that leaves the loop makes the whole expression fail. -/
lemma membersAnswer_of_exit {params : GetParams} {newPredicate : Text} {iterable : Iterable}
    {nodeIndex : Nat} {failure : Failure} (inside : nodeIndex < planner.views.size iterable)
    (leaves : (verdict planner tree place params newPredicate iterable nodeIndex).turn planner
      place nodeIndex = .exit failure) :
    ∃ other, membersAnswer planner tree place params newPredicate iterable = .error other := by
  rcases exists_first_exit ((List.range (planner.views.size iterable)).map fun nodeIndex =>
      (verdict planner tree place params newPredicate iterable nodeIndex).turn planner place
        nodeIndex) with stays | ⟨before, other, after, split, stays⟩
  · exact absurd leaves (stays _ (mem_map_of_mem (mem_range.mpr inside)) failure)
  · exact ⟨other, by rw [membersAnswer, split, collectTurns_of_exit stays]⟩

/-- The verdicts of a member without an error. -/
def Verdict.Fine : Verdict Object -> Prop
  | .unavailable _ => False
  | .broken _ => False
  | _ => True

lemma Verdict.Fine.stays {verdict : Verdict Object} (fine : verdict.Fine)
    (place : Place Object Iterable) (nodeIndex : Nat) :
    (verdict.turn planner place nodeIndex).Stays := by
  intro failure
  cases verdict with
  | unavailable status => exact fine.elim
  | nothing => exact nofun
  | broken failure => exact fine.elim
  | refused => exact nofun
  | accepted object => exact nofun

/-- Nothing goes wrong with an expression at a place.  A node that is missing is
no error. -/
structure ErrorFreeAt (planner : QueryPlanner World Object Iterable)
    (tree : ResourceTree Object Iterable) (queryVariables : QueryVariables)
    (place : Place Object Iterable) (expression : RedPathExpression) : Prop where
  members : ∀ iterable, membersFor place.redfishResponse expression = some iterable ->
    ∃ newPredicate,
      planner.substituteVariables expression.expression queryVariables = .ok newPredicate ∧
      ∀ nodeIndex, nodeIndex < planner.views.size iterable ->
        (verdict planner tree place (paramsAt planner place expression) newPredicate iterable
          nodeIndex).Fine
  object : ∀ object failure, membersFor place.redfishResponse expression = none ->
    place.redfishResponse.redfishObject = some object ->
    objectAnswer planner tree queryVariables place expression object = .error failure ->
      ∃ status, failure = .status status ∧ status.code = .notFound

lemma ErrorFreeAt.answer {queryVariables : QueryVariables} {expression : RedPathExpression}
    (fine : ErrorFreeAt planner tree queryVariables place expression) :
    treeAnswer planner tree queryVariables place expression =
        .ok (available planner tree queryVariables place expression) ∨
      (available planner tree queryVariables place expression = [] ∧ ∃ status,
        treeAnswer planner tree queryVariables place expression = .error (.status status) ∧
          status.code = .notFound) := by
  unfold treeAnswer available
  cases found : membersFor place.redfishResponse expression with
  | some iterable =>
    rcases fine.members iterable found with ⟨newPredicate, substituted, members⟩
    simp only [substituted]
    exact .inl (membersAnswer_of_stays fun nodeIndex inside =>
      (members nodeIndex inside).stays place nodeIndex)
  | none =>
    cases shown : place.redfishResponse.redfishObject with
    | none => exact .inl rfl
    | some object =>
      simp only
      cases answered : objectAnswer planner tree queryVariables place expression object with
      | ok responses => exact .inl rfl
      | error failure =>
        rcases fine.object object failure found shown answered with ⟨status, rfl, missing⟩
        exact .inr ⟨rfl, status, rfl, missing⟩

end Ecclesia.Planner
