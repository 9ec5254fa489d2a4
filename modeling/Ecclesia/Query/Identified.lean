import Ecclesia.Planner.Normalize
import Ecclesia.Verification.Compare

namespace Ecclesia.Query

open Absl List
open QueryValue (subquery induction_on_parts)
open Planner (kIdentifierTag)
open Verification (sameIdentifier)

/-!
# Data of an identifier

A query result can be asked for the subqueries that belong to an identifier, and told to
remove them.  Both walk through the whole result, but they do not look for the identifier in
the same places.  The definitions follow `query_result.cc`.
-/

/-- `identifier()`, which is empty for another kind of value. -/
def heldIdentifier (value : QueryValue) : Identifier :=
  value.identifier?.getD .empty

/-- Whether the value under `kIdentifierTag` is the identifier. -/
def isMatch (identifier : Identifier) (fields : QueryResultData) : Bool :=
  match fields.lookup kIdentifierTag with
  | some tagged => sameIdentifier (heldIdentifier tagged) identifier
  | none => false

section

variable (identifier : Identifier)

mutual

/-- `RemoveDataForIdentifier` at a value: whether the identifier was found, and what remains. -/
def removeFromValue : QueryValue -> Bool × QueryValue
  | .subquery fields =>
    if removeFromTagged fields then (true, .notSet)
    else (removeFromFields fields).map id .subquery
  | .list values => (removeFromList values).map id .list
  | .identifier held => (sameIdentifier identifier held, .identifier held)
  | value => (false, value)

/-- Whether the identifier is found in the value under `kIdentifierTag`. -/
def removeFromTagged : QueryResultData -> Bool
  | [] => false
  | (key, value) :: rest =>
    if key = kIdentifierTag then (removeFromValue value).1 else removeFromTagged rest

def removeFromFields : QueryResultData -> Bool × QueryResultData
  | [] => (false, [])
  | (key, value) :: rest =>
    ((removeFromValue value).1 || (removeFromFields rest).1,
      (key, (removeFromValue value).2) :: (removeFromFields rest).2)

def removeFromList : List QueryValue -> Bool × List QueryValue
  | [] => (false, [])
  | value :: rest =>
    ((removeFromValue value).1 || (removeFromList rest).1,
      (removeFromValue value).2 :: (removeFromList rest).2)

end

mutual

def getFromValue : QueryValue -> List QueryResultData
  | .subquery fields => if isMatch identifier fields then [fields] else getFromFields fields
  | .list values => getFromList values
  | _ => []

def getFromFields : QueryResultData -> List QueryResultData
  | [] => []
  | (_, value) :: rest => getFromValue value ++ getFromFields rest

def getFromList : List QueryValue -> List QueryResultData
  | [] => []
  | value :: rest => getFromValue value ++ getFromList rest

end

end

def removeDataForIdentifier (result : QueryResult) (identifier : Identifier) :
    Bool × QueryResult :=
  let removed := removeFromFields identifier result.data
  (removed.1, { result with data := removed.2 })

def getDataForIdentifier (result : QueryResult) (identifier : Identifier) :
    StatusOr (List QueryResultData) :=
  match getFromFields identifier result.data with
  | [] => .error (.notFound (text "No subquery result found for devpath: " ++
      identifier.machineDevpath.getD []))
  | found => .ok found

/-- What a removal should leave: outermost subqueries that are returned become unset values. -/
def unsetReturned (identifier : Identifier) : QueryValue -> QueryValue
  | .subquery fields =>
    if isMatch identifier fields then .notSet else .subquery (unsetFields identifier fields)
  | .list values => .list (unsetList identifier values)
  | value => value
where
  unsetFields (identifier : Identifier) : QueryResultData -> QueryResultData
    | [] => []
    | (key, value) :: rest => (key, unsetReturned identifier value) :: unsetFields identifier rest
  unsetList (identifier : Identifier) : List QueryValue -> List QueryValue
    | [] => []
    | value :: rest => unsetReturned identifier value :: unsetList identifier rest

section

variable (identifier : Identifier)

def Holds : QueryValue -> Prop
  | .identifier held => sameIdentifier held identifier = true
  | _ => False

def Occurs (whole : QueryValue) : Prop :=
  ∃ part, Holds identifier part ∧ PartOf QueryValue.parts part whole

def Matched : QueryValue -> Prop
  | .subquery fields => isMatch identifier fields = true
  | _ => False

lemma sameIdentifier_symm (first second : Identifier) :
    sameIdentifier first second = sameIdentifier second first := by
  unfold sameIdentifier
  simp only [Bool.beq_comm]

lemma removeFromFields_eq (fields : QueryResultData) :
    removeFromFields identifier fields =
      (fields.any fun entry => (removeFromValue identifier entry.2).1,
        fields.map fun entry => (entry.1, (removeFromValue identifier entry.2).2)) := by
  induction fields with
  | nil => rfl
  | cons entry rest ih =>
    rw [removeFromFields, ih]
    rfl

lemma removeFromList_eq (values : List QueryValue) :
    removeFromList identifier values =
      (values.any fun value => (removeFromValue identifier value).1,
        values.map fun value => (removeFromValue identifier value).2) := by
  induction values with
  | nil => rfl
  | cons value rest ih =>
    rw [removeFromList, ih]
    rfl

lemma removeFromTagged_eq (fields : QueryResultData) :
    removeFromTagged identifier fields =
      (fields.lookup kIdentifierTag).any fun tagged => (removeFromValue identifier tagged).1 := by
  induction fields with
  | nil => rfl
  | cons entry rest ih =>
    rcases entry with ⟨key, value⟩
    rw [removeFromTagged, lookup_cons, ih]
    by_cases tag : key = kIdentifierTag
    · rw [tag]
      rfl
    · rw [if_neg tag, beq_eq_false_iff_ne.mpr (.symm tag)]

lemma getFromFields_eq (fields : QueryResultData) :
    getFromFields identifier fields =
      fields.flatMap fun entry => getFromValue identifier entry.2 := by
  induction fields with
  | nil => rfl
  | cons entry rest ih =>
    rw [getFromFields, ih]
    rfl

lemma getFromList_eq (values : List QueryValue) :
    getFromList identifier values = values.flatMap (getFromValue identifier) := by
  induction values with
  | nil => rfl
  | cons value rest ih =>
    rw [getFromList, ih]
    rfl

lemma unsetFields_eq (fields : QueryResultData) :
    unsetReturned.unsetFields identifier fields =
      fields.map fun entry => (entry.1, unsetReturned identifier entry.2) := by
  induction fields with
  | nil => rfl
  | cons entry rest ih =>
    rw [unsetReturned.unsetFields, ih]
    rfl

lemma unsetList_eq (values : List QueryValue) :
    unsetReturned.unsetList identifier values = values.map (unsetReturned identifier) := by
  induction values with
  | nil => rfl
  | cons value rest ih =>
    rw [unsetReturned.unsetList, ih]
    rfl

lemma occurs_iff {value : QueryValue} :
    Occurs identifier value ↔
      Holds identifier value ∨ ∃ child ∈ value.parts, Occurs identifier child :=
  exists_partOf_iff

variable {fields : QueryResultData}

lemma removeFromTagged_iff :
    removeFromTagged identifier fields = true ↔
      ∃ tagged, fields.lookup kIdentifierTag = some tagged ∧
        (removeFromValue identifier tagged).1 = true := by
  rw [removeFromTagged_eq, Option.any_eq_true]

lemma removeFromValue_found : ∀ value,
    (removeFromValue identifier value).1 = true ↔ Occurs identifier value := by
  refine induction_on_parts fun value ih => ?_
  rw [occurs_iff]
  cases value with
  | subquery fields =>
    have found : (removeFromValue identifier (.subquery fields)).1 = true ↔
        ∃ entry ∈ fields, (removeFromValue identifier entry.2).1 = true := by
      rw [removeFromValue]
      cases tagged : removeFromTagged identifier fields with
      | true =>
        rcases (removeFromTagged_iff identifier).mp tagged with ⟨value, looked, hit⟩
        exact iff_of_true rfl ⟨_, mem_of_lookup looked, hit⟩
      | false =>
        rw [removeFromFields_eq]
        exact any_eq_true
    rw [found]
    constructor
    · rintro ⟨entry, member, hit⟩
      have isPart : entry.2 ∈ (subquery fields).parts := mem_map_of_mem member
      exact .inr ⟨entry.2, isPart, (ih entry.2 isPart).mp hit⟩
    · rintro (impossible | ⟨child, isPart, occurs⟩)
      · cases impossible
      · have hit := (ih child isPart).mpr occurs
        rcases mem_map.mp isPart with ⟨entry, member, same⟩
        subst same
        exact ⟨entry, member, hit⟩
  | list values =>
    have found : (removeFromValue identifier (.list values)).1 = true ↔
        ∃ value ∈ values, (removeFromValue identifier value).1 = true := by
      rw [removeFromValue, removeFromList_eq]
      exact any_eq_true
    rw [found]
    constructor
    · rintro ⟨child, isPart, hit⟩
      exact .inr ⟨child, isPart, (ih child isPart).mp hit⟩
    · rintro (impossible | ⟨child, isPart, occurs⟩)
      · cases impossible
      · exact ⟨child, isPart, (ih child isPart).mpr occurs⟩
  | identifier held =>
    rw [removeFromValue, sameIdentifier_symm]
    constructor
    · exact .inl
    · rintro (same | ⟨child, impossible, _⟩)
      · exact same
      · cases impossible
  | _ =>
    constructor
    · intro impossible
      cases impossible
    · rintro (impossible | ⟨child, impossible, _⟩)
      · cases impossible
      · cases impossible

/-- A value in which nothing is found does not change. -/
lemma removeFromValue_unchanged : ∀ value, (removeFromValue identifier value).1 = false ->
      (removeFromValue identifier value).2 = value := by
  refine induction_on_parts fun value ih missed => ?_
  cases value with
  | subquery fields =>
    rw [removeFromValue] at missed ⊢
    cases tagged : removeFromTagged identifier fields with
    | true =>
      rw [tagged] at missed
      cases missed
    | false =>
      rw [tagged, removeFromFields_eq] at missed
      rw [removeFromFields_eq]
      have each := any_eq_false.mp missed
      have kept : (fields.map fun entry => (entry.1, (removeFromValue identifier entry.2).2)) =
          fields.map fun entry => entry := by
        apply map_congr_left
        intro entry member
        rw [ih entry.2 (mem_map_of_mem member) (Bool.eq_false_of_not_eq_true (each entry member))]
      change subquery _ = _
      rw [kept, map_id']
  | list values =>
    rw [removeFromValue, removeFromList_eq] at missed ⊢
    have each := any_eq_false.mp missed
    have kept : (values.map fun value => (removeFromValue identifier value).2) =
        values.map fun value => value := by
      apply map_congr_left
      intro value member
      exact ih value member (Bool.eq_false_of_not_eq_true (each value member))
    change QueryValue.list _ = _
    rw [kept, map_id']
  | _ => rfl

lemma isMatch_iff (located : identifier.localDevpath.getD [] ≠ []) :
    isMatch identifier fields = true ↔
      ∃ tagged, fields.lookup kIdentifierTag = some tagged ∧ Holds identifier tagged := by
  unfold isMatch
  cases looked : fields.lookup kIdentifierTag with
  | none =>
    constructor
    · intro impossible
      cases impossible
    · rintro ⟨tagged, impossible, _⟩
      cases impossible
  | some tagged =>
    have same : sameIdentifier (heldIdentifier tagged) identifier = true ↔
        Holds identifier tagged := by
      cases tagged with
      | identifier held => exact .rfl
      | _ =>
        refine iff_of_false ?_ id
        intro same
        apply located
        have devpath := (Bool.and_eq_true_iff.mp (Bool.and_eq_true_iff.mp
          (Bool.and_eq_true_iff.mp (Bool.and_eq_true_iff.mp same).1).1).1).1
        exact (eq_of_beq devpath).symm
    constructor
    · intro found
      exact ⟨tagged, rfl, same.mp found⟩
    · rintro ⟨other, known, holds⟩
      cases known
      exact same.mpr holds

lemma mem_getFromValue : ∀ value,
    fields ∈ getFromValue identifier value ↔
      isMatch identifier fields = true ∧
        Reached QueryValue.parts (Matched identifier) (.subquery fields) value := by
  refine induction_on_parts fun value ih => ?_
  rw [reached_iff]
  cases value with
  | subquery outer =>
    have matching : Matched identifier (.subquery outer) ↔ isMatch identifier outer = true := .rfl
    rw [getFromValue, subquery.injEq, matching]
    cases matched : isMatch identifier outer with
    | true =>
      rw [if_pos rfl, mem_singleton]
      constructor
      · intro same
        subst same
        exact ⟨matched, .inl rfl⟩
      · rintro ⟨_, same | ⟨passable, _⟩⟩
        · exact same
        · exact absurd rfl passable
    | false =>
      rw [if_neg Bool.false_ne_true, getFromFields_eq, mem_flatMap]
      constructor
      · rintro ⟨entry, member, returned⟩
        have isPart : entry.2 ∈ (subquery outer).parts := mem_map_of_mem member
        rcases (ih entry.2 isPart).mp returned with ⟨holds, reached⟩
        exact ⟨holds, .inr ⟨Bool.false_ne_true, entry.2, isPart, reached⟩⟩
      · rintro ⟨holds, same | ⟨_, child, isPart, reached⟩⟩
        · rw [same, matched] at holds
          cases holds
        · have returned := (ih child isPart).mpr ⟨holds, reached⟩
          rcases mem_map.mp isPart with ⟨entry, member, same⟩
          subst same
          exact ⟨entry, member, returned⟩
  | list values =>
    rw [getFromValue, getFromList_eq, mem_flatMap]
    constructor
    · rintro ⟨child, isPart, returned⟩
      rcases (ih child isPart).mp returned with ⟨holds, reached⟩
      exact ⟨holds, .inr ⟨id, child, isPart, reached⟩⟩
    · rintro ⟨holds, impossible | ⟨_, child, isPart, reached⟩⟩
      · cases impossible
      · exact ⟨child, isPart, (ih child isPart).mpr ⟨holds, reached⟩⟩
  | _ =>
    refine iff_of_false not_mem_nil ?_
    rintro ⟨_, impossible | ⟨_, child, impossible, _⟩⟩
    · cases impossible
    · cases impossible

/-- Something is returned exactly if some subquery matches. -/
lemma getFromValue_found (value : QueryValue) :
    getFromValue identifier value ≠ [] ↔
      ∃ part, Matched identifier part ∧ PartOf QueryValue.parts part value := by
  rw [exists_closed_iff]
  constructor
  · intro some
    rcases exists_mem_of_ne_nil _ some with ⟨fields, returned⟩
    exact ⟨.subquery fields, (mem_getFromValue identifier value).mp returned⟩
  · rintro ⟨part, matched, reached⟩
    cases part with
    | subquery fields =>
      exact ne_nil_of_mem ((mem_getFromValue identifier value).mpr ⟨matched, reached⟩)
    | _ => cases matched

lemma lookup_map (change : QueryValue -> QueryValue) (key : Text) (fields : QueryResultData) :
    (fields.map fun entry => (entry.1, change entry.2)).lookup key =
      (fields.lookup key).map change := by
  induction fields with
  | nil => rfl
  | cons entry rest ih =>
    rw [map_cons, lookup_cons, lookup_cons, ih]
    cases key == entry.1 with
    | true => rfl
    | false => rfl

lemma getFromValue_removed (located : identifier.localDevpath.getD [] ≠ []) : ∀ value,
    getFromValue identifier (removeFromValue identifier value).2 = [] := by
  refine induction_on_parts fun value ih => ?_
  cases value with
  | subquery fields =>
    rw [removeFromValue]
    cases tagged : removeFromTagged identifier fields with
    | true => rfl
    | false =>
      rw [removeFromFields_eq]
      change getFromValue identifier (.subquery _) = []
      have unmatched : ¬ isMatch identifier (fields.map fun entry =>
          (entry.1, (removeFromValue identifier entry.2).2)) = true := by
        rw [isMatch_iff identifier located,
          lookup_map (fun value => (removeFromValue identifier value).2)]
        rintro ⟨changed, looked, holds⟩
        rcases Option.map_eq_some_iff.mp looked with ⟨value, looked, same⟩
        cases found : (removeFromValue identifier value).1 with
        | true =>
          rw [(removeFromTagged_iff identifier).mpr ⟨value, looked, found⟩] at tagged
          cases tagged
        | false =>
          rw [removeFromValue_unchanged identifier value found] at same
          subst same
          have occurs := (removeFromValue_found identifier value).mpr ⟨value, holds, .here⟩
          rw [found] at occurs
          cases occurs
      rw [getFromValue, if_neg unmatched, getFromFields_eq, flatMap_map, flatMap_eq_nil_iff]
      intro entry member
      exact ih entry.2 (mem_map_of_mem member)
  | list values =>
    rw [removeFromValue, removeFromList_eq]
    change getFromValue identifier (.list _) = []
    rw [getFromValue, getFromList_eq, flatMap_map, flatMap_eq_nil_iff]
    exact ih
  | _ => rfl

/-- The value under the tag of a subquery is something else, in which the identifier occurs. -/
def Hides : QueryValue -> Prop
  | .subquery fields => isMatch identifier fields = false ∧
      ∃ tagged, fields.lookup kIdentifierTag = some tagged ∧ Occurs identifier tagged
  | _ => False

/-- A subquery outside those that are returned hides the identifier. -/
def HidesOutside (whole : QueryValue) : Prop :=
  ∃ part, Hides identifier part ∧ Reached QueryValue.parts (Matched identifier) part whole

lemma hidesOutside_iff {value : QueryValue} :
    HidesOutside identifier value ↔
      Hides identifier value ∨ ¬ Matched identifier value ∧
        ∃ child ∈ value.parts, HidesOutside identifier child := by
  constructor
  · rintro ⟨part, hides, reached⟩
    rcases reached_iff.mp reached with same | ⟨passable, child, isPart, later⟩
    · subst same
      exact .inl hides
    · exact .inr ⟨passable, child, isPart, part, hides, later⟩
  · rintro (hides | ⟨passable, child, isPart, part, hides, later⟩)
    · exact ⟨value, hides, .here⟩
    · exact ⟨part, hides, .inside passable isPart later⟩

lemma removeFromValue_remains (located : identifier.localDevpath.getD [] ≠ []) : ∀ value,
    (removeFromValue identifier value).2 = unsetReturned identifier value ↔
      ¬ HidesOutside identifier value := by
  refine induction_on_parts fun value ih => ?_
  rw [hidesOutside_iff]
  cases value with
  | subquery fields =>
    have matching : Matched identifier (.subquery fields) ↔ isMatch identifier fields = true := .rfl
    have hidesHere : Hides identifier (.subquery fields) ↔ isMatch identifier fields = false ∧
        removeFromTagged identifier fields = true := by
      rw [removeFromTagged_iff]
      simp only [removeFromValue_found]
      rfl
    have each : (fields.map fun entry => (entry.1, (removeFromValue identifier entry.2).2)) =
          (fields.map fun entry => (entry.1, unsetReturned identifier entry.2)) ↔
        ¬ ∃ child ∈ (subquery fields).parts,
          HidesOutside identifier child := by
      rw [map_inj_left, not_exists]
      constructor
      · rintro same child ⟨isPart, hidden⟩
        rcases mem_map.mp isPart with ⟨entry, member, rfl⟩
        exact (ih entry.2 isPart).mp (Prod.mk.inj (same entry member)).2 hidden
      · intro visible entry member
        have isPart : entry.2 ∈ (subquery fields).parts := mem_map_of_mem member
        rw [(ih entry.2 isPart).mpr fun hidden => visible entry.2 ⟨isPart, hidden⟩]
    rw [removeFromValue, unsetReturned, hidesHere, matching]
    cases tagged : removeFromTagged identifier fields with
    | true =>
      cases matched : isMatch identifier fields with
      | true => simp
      | false => simp
    | false =>
      have unmatched : isMatch identifier fields = false := by
        cases matched : isMatch identifier fields with
        | false => rfl
        | true =>
          rcases (isMatch_iff identifier located).mp matched with ⟨value, looked, holds⟩
          have hit := (removeFromTagged_iff identifier).mpr ⟨value, looked,
            (removeFromValue_found identifier value).mpr ⟨value, holds, .here⟩⟩
          rw [tagged] at hit
          cases hit
      rw [unmatched, if_neg Bool.false_ne_true, if_neg Bool.false_ne_true, removeFromFields_eq,
        unsetFields_eq]
      change subquery _ = _ ↔ _
      rw [subquery.injEq, each]
      simp
  | list values =>
    rw [removeFromValue, unsetReturned, removeFromList_eq, unsetList_eq]
    change QueryValue.list _ = _ ↔ _
    rw [QueryValue.list.injEq, map_inj_left]
    constructor
    · rintro same (impossible | ⟨_, child, isPart, hidden⟩)
      · cases impossible
      · exact (ih child isPart).mp (same child isPart) hidden
    · intro visible child isPart
      exact (ih child isPart).mpr fun hidden => visible (.inr ⟨id, child, isPart, hidden⟩)
  | _ =>
    refine iff_of_true rfl ?_
    rintro (impossible | ⟨_, child, impossible, _⟩)
    · cases impossible
    · cases impossible

lemma removeDataForIdentifier_found (result : QueryResult) :
    (removeDataForIdentifier result identifier).1 = true ↔
      ∃ part, Holds identifier part ∧ part.InFields result.data := by
  rw [removeDataForIdentifier, removeFromFields_eq, QueryValue.exists_inFields_iff]
  rw [any_eq_true]
  apply exists_congr
  intro entry
  rw [removeFromValue_found, Occurs]

lemma getDataForIdentifier_found (result : QueryResult) :
    (∃ found, getDataForIdentifier result identifier = .ok found) ↔
      ∃ part, Matched identifier part ∧ part.InFields result.data := by
  have some : getFromFields identifier result.data ≠ [] ↔
      ∃ part, Matched identifier part ∧ part.InFields result.data := by
    rw [getFromFields_eq, Ne, flatMap_eq_nil_iff, not_forall, QueryValue.exists_inFields_iff]
    apply exists_congr
    intro entry
    rw [Classical.not_imp, <- getFromValue_found]
  rw [<- some, getDataForIdentifier]
  cases getFromFields identifier result.data with
  | nil => simp
  | cons found others => simp

end

/-- A removal agrees with what is returned exactly if the identifier occurs nowhere or under the tag
of some subquery, and no subquery outside those that are returned hides it. -/
theorem removes_returned_iff :
    ∀ (result : QueryResult) (identifier : Identifier),
      identifier.localDevpath.getD [] ≠ [] ->
      ((((removeDataForIdentifier result identifier).1 = true ↔
            ∃ found, getDataForIdentifier result identifier = .ok found) ∧
          (∃ message, getDataForIdentifier (removeDataForIdentifier result identifier).2
            identifier = .error (.notFound message)) ∧
          (removeDataForIdentifier result identifier).2 =
            { result with data := unsetReturned.unsetFields identifier result.data }) ↔
        ((∃ part, Holds identifier part ∧ part.InFields result.data) ->
            ∃ part, Matched identifier part ∧ part.InFields result.data) ∧
          ∀ entry ∈ result.data, ¬ HidesOutside identifier entry.2) := by
  intro result identifier located
  have fewer : (∃ part, Matched identifier part ∧ part.InFields result.data) ->
      ∃ part, Holds identifier part ∧ part.InFields result.data := by
    rintro ⟨part, matched, entry, member, inside⟩
    cases part with
    | subquery fields =>
      rcases (isMatch_iff identifier located).mp matched with ⟨tagged, looked, holds⟩
      have isPart : tagged ∈ (QueryValue.subquery fields).parts :=
        List.mem_map_of_mem (mem_of_lookup looked)
      exact ⟨tagged, holds, entry, member, partOf_of_mem_parts isPart inside⟩
    | _ => cases matched
  have gone : ∃ message, getDataForIdentifier (removeDataForIdentifier result identifier).2
      identifier = .error (.notFound message) := by
    have empty : getFromFields identifier (removeFromFields identifier result.data).2 = [] := by
      rw [removeFromFields_eq, getFromFields_eq, List.flatMap_map, List.flatMap_eq_nil_iff]
      intro entry _
      exact getFromValue_removed identifier located entry.2
    rw [getDataForIdentifier, removeDataForIdentifier]
    rw [empty]
    exact ⟨_, rfl⟩
  have remains : (removeDataForIdentifier result identifier).2 =
        { result with data := unsetReturned.unsetFields identifier result.data } ↔
      ∀ entry ∈ result.data, ¬ HidesOutside identifier entry.2 := by
    rw [removeDataForIdentifier, removeFromFields_eq, unsetFields_eq, QueryResult.mk.injEq]
    simp only [true_and, and_true, List.map_inj_left, Prod.mk.injEq,
      removeFromValue_remains identifier located]
  rw [removeDataForIdentifier_found, getDataForIdentifier_found, remains]
  constructor
  · rintro ⟨agrees, _, visible⟩
    exact ⟨agrees.mp, visible⟩
  · rintro ⟨stored, visible⟩
    exact ⟨⟨stored, fewer⟩, gone, visible⟩

def physIdentifier : Identifier := { Identifier.empty with localDevpath := some (text "/phys") }

/-- A result with one subquery, under whose tag the value stands. -/
def taggedResult (value : QueryValue) : QueryResult :=
  { QueryResult.start (text "query") with
    data := [(text "subquery", .subquery [(kIdentifierTag, value), (text "Name", .bool true)])] }

/-- The identifier is removed where it stands under the tag. -/
theorem removes_returned_tagged :
    ((removeDataForIdentifier (taggedResult (.identifier physIdentifier)) physIdentifier).1 = true ↔
      ∃ found, getDataForIdentifier (taggedResult (.identifier physIdentifier))
        physIdentifier = .ok found) := by
  refine ((removes_returned_iff (taggedResult (.identifier physIdentifier)) physIdentifier
    (List.cons_ne_nil _ _)).mpr ⟨?_, ?_⟩).1
  · intro _
    exact ⟨.subquery [(kIdentifierTag, .identifier physIdentifier), (text "Name", .bool true)],
      rfl, _, .head _, .here⟩
  · intro entry member hides
    cases List.mem_singleton.mp member
    rcases (hidesOutside_iff physIdentifier).mp hides with ⟨unmatched, _⟩ | ⟨passable, _⟩
    · cases unmatched
    · exact passable rfl

/-- In a list under another key the identifier stays; under the tag it takes a subquery with it. -/
theorem removes_hidden :
    removeDataForIdentifier { QueryResult.start (text "query") with
        data := [(text "Chassis", .list [.identifier physIdentifier])] } physIdentifier =
      (true, { QueryResult.start (text "query") with
        data := [(text "Chassis", .list [.identifier physIdentifier])] }) ∧
    getDataForIdentifier { QueryResult.start (text "query") with
        data := [(text "Chassis", .list [.identifier physIdentifier])] } physIdentifier =
      .error (.notFound (text "No subquery result found for devpath: ")) ∧
    removeDataForIdentifier (taggedResult (.list [.identifier physIdentifier])) physIdentifier =
      (true, { QueryResult.start (text "query") with data := [(text "subquery", .notSet)] }) ∧
    getDataForIdentifier (taggedResult (.list [.identifier physIdentifier])) physIdentifier =
      .error (.notFound (text "No subquery result found for devpath: ")) := by
  exact ⟨rfl, rfl, rfl, rfl⟩

end Ecclesia.Query
