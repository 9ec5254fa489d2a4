import Ecclesia.QueryValidator.Tests
import Mathlib.Data.List.Infix

namespace Ecclesia.QueryValidator

open Absl List Option

/-!
# Ids that conflict

One pass over the subqueries finds three kinds of conflict: an id that comes twice under one root,
a name that comes twice in one subquery, and an id that is the name of a property of a root.  For
the last kind a subquery is compared with the first subquery with the root's id that the pass has
come to.
-/

def rootPairs (subqueries : List Subquery) : List (Text × Text) :=
  subqueries.flatMap fun subquery =>
    (rootIdsOrTopLevel subquery).map fun rootId => (rootId, subquery.subqueryId)

def Holds (map : HashMap Text (HashSet Text)) (pairs : List (Text × Text)) : Prop :=
  ∀ rootId subqueryId,
    (∃ children, map.lookup rootId = some children ∧ subqueryId ∈ children.elements) ↔
      (rootId, subqueryId) ∈ pairs

lemma twice_concat {Item : Type} [BEq Item] [LawfulBEq Item] {seen : List Item}
    {item other : Item} :
    2 <= (seen ++ [item]).count other ↔ 2 <= seen.count other ∨ other = item ∧ item ∈ seen := by
  rw [count_append, <- count_pos_iff]
  by_cases same : other = item
  · subst same
    rw [count_singleton_self]
    constructor
    · intro twice
      exact .inr ⟨rfl, by omega⟩
    · rintro (twice | ⟨_, once⟩)
      · omega
      · omega
  · rw [count_singleton, if_neg (by simpa using fun eq => same eq.symm)]
    simp [same]

lemma checkRootId_holds {subqueryId path rootId : Text}
    {state : HashMap Text (HashSet Text) × List Issue} {pairs : List (Text × Text)}
    (holds : Holds state.1 pairs) :
    Holds (checkRootId subqueryId path state rootId).1 (pairs ++ [(rootId, subqueryId)]) ∧
      (checkRootId subqueryId path state rootId).2 =
        state.2 ++ if (rootId, subqueryId) ∈ pairs then
          [⟨.conflictingIds, duplicateIdMessage subqueryId, path⟩] else [] := by
  have grown : ∀ (children : HashSet Text),
      (∀ id, id ∈ children.elements ↔ (rootId, id) ∈ pairs) ->
      Holds (state.1.assign rootId (children.insert subqueryId))
        (pairs ++ [(rootId, subqueryId)]) := by
    intro children same otherRoot otherId
    rw [HashMap.lookup_assign, mem_append, mem_singleton, <- holds]
    by_cases isRoot : otherRoot = rootId
    · subst isRoot
      rw [beq_self_eq_true, if_pos rfl, holds, <- same]
      simp only [Option.some.injEq, exists_eq_left', HashSet.mem_insert, Prod.mk.injEq, true_and]
      exact or_comm
    · simp [isRoot]
  unfold checkRootId
  cases found : state.1.lookup rootId with
  | none =>
    have absent : ∀ id, (rootId, id) ∉ pairs := by
      intro id isPair
      rcases (holds rootId id).mpr isPair with ⟨children, isThere, _⟩
      rw [found] at isThere
      cases isThere
    refine ⟨grown .empty ?_, ?_⟩
    · intro id
      constructor
      · intro impossible
        cases impossible
      · exact fun isPair => absurd isPair (absent id)
    · rw [if_neg (absent subqueryId), append_nil]
  | some children =>
    have same : ∀ id, id ∈ children.elements ↔ (rootId, id) ∈ pairs := by
      intro id
      rw [<- holds, found]
      simp
    by_cases present : subqueryId ∈ children.elements
    · simp only [if_pos present, if_pos ((same subqueryId).mp present)]
      refine ⟨?_, trivial⟩
      intro otherRoot otherId
      rw [holds, mem_append, mem_singleton]
      constructor
      · exact .inl
      · rintro (isPair | isLast)
        · exact isPair
        · rw [isLast]
          exact (same subqueryId).mp present
    · simp only [if_neg present, if_neg fun isPair => present ((same subqueryId).mpr isPair),
        append_nil]
      exact ⟨grown children same, trivial⟩

/-- An id that comes twice under one root. -/
def Twice (pairs : List (Text × Text)) (subqueryId : Text) : Prop :=
  ∃ rootId, 2 <= pairs.count (rootId, subqueryId)

/-- The ids that came twice are reported, beside what was reported before. -/
structure ReportsIds (path : Text) (Before : Issue -> Prop) (pairs : List (Text × Text))
    (state : HashMap Text (HashSet Text) × List Issue) : Prop where
  holds : Holds state.1 pairs
  errors : ∀ issue, issue ∈ state.2 ↔
    Before issue ∨ ∃ subqueryId, Twice pairs subqueryId ∧
      issue = ⟨.conflictingIds, duplicateIdMessage subqueryId, path⟩

lemma twice_pair_concat {pairs : List (Text × Text)} {rootId subqueryId other : Text} :
    Twice (pairs ++ [(rootId, subqueryId)]) other ↔
      Twice pairs other ∨ other = subqueryId ∧ (rootId, subqueryId) ∈ pairs := by
  constructor
  · rintro ⟨otherRoot, twice⟩
    rcases twice_concat.mp twice with before | ⟨same, isPair⟩
    · exact .inl ⟨otherRoot, before⟩
    · exact .inr ⟨(Prod.mk.inj same).2, isPair⟩
  · rintro (⟨otherRoot, before⟩ | ⟨rfl, isPair⟩)
    · exact ⟨otherRoot, twice_concat.mpr (.inl before)⟩
    · exact ⟨rootId, twice_concat.mpr (.inr ⟨rfl, isPair⟩)⟩

lemma ReportsIds.checkRootId {path subqueryId rootId : Text} {Before : Issue -> Prop}
    {pairs : List (Text × Text)} {state : HashMap Text (HashSet Text) × List Issue}
    (reports : ReportsIds path Before pairs state) :
    ReportsIds path Before (pairs ++ [(rootId, subqueryId)])
      (checkRootId subqueryId path state rootId) := by
  rcases @checkRootId_holds subqueryId path rootId _ _ reports.holds with ⟨holds, errors⟩
  refine ⟨holds, ?_⟩
  intro issue
  rw [errors, mem_append, reports.errors]
  constructor
  · rintro ((before | ⟨other, twice, isIssue⟩) | added)
    · exact .inl before
    · exact .inr ⟨other, twice_pair_concat.mpr (.inl twice), isIssue⟩
    · by_cases isPair : (rootId, subqueryId) ∈ pairs
      · rw [if_pos isPair] at added
        exact .inr ⟨subqueryId, twice_pair_concat.mpr (.inr ⟨rfl, isPair⟩), mem_singleton.mp added⟩
      · rw [if_neg isPair] at added
        cases added
  · rintro (before | ⟨other, twice, isIssue⟩)
    · exact .inl (.inl before)
    · rcases twice_pair_concat.mp twice with earlier | ⟨rfl, isPair⟩
      · exact .inl (.inr ⟨other, earlier, isIssue⟩)
      · rw [if_pos isPair]
        exact .inr (mem_singleton.mpr isIssue)

variable {path : Text} {Before : Issue -> Prop}

lemma ReportsIds.checkForDuplicateSubqueryIds {pairs : List (Text × Text)}
    {state : HashMap Text (HashSet Text) × List Issue} (subquery : Subquery)
    (reports : ReportsIds path Before pairs state) :
    ReportsIds path Before
      (pairs ++ (rootIdsOrTopLevel subquery).map fun rootId => (rootId, subquery.subqueryId))
      (checkForDuplicateSubqueryIds subquery path state) := by
  unfold QueryValidator.checkForDuplicateSubqueryIds
  induction rootIdsOrTopLevel subquery generalizing pairs state with
  | nil =>
    rw [map_nil, append_nil]
    exact reports
  | cons rootId rest ih =>
    have later := ih (@ReportsIds.checkRootId path subquery.subqueryId rootId _ _ _ reports)
    rw [append_assoc] at later
    exact later

/-- The names that came twice are reported, beside what was reported before. -/
structure ReportsNames (path : Text) (Before : Issue -> Prop) (seen : List Text)
    (state : HashSet Text × List Issue) : Prop where
  holds : ∀ name, name ∈ state.1.elements ↔ name ∈ seen
  errors : ∀ issue, issue ∈ state.2 ↔
    Before issue ∨ ∃ name, 2 <= seen.count name ∧
      issue = ⟨.conflictingIds, duplicatePropertyMessage name, path⟩

variable {state : HashSet Text × List Issue}

lemma ReportsNames.checkPropertyName {seen : List Text} (property : RedfishProperty)
    (reports : ReportsNames path Before seen state) :
    ReportsNames path Before (seen ++ [effectiveName property])
      (checkPropertyName path state property) := by
  constructor
  · intro name
    rw [QueryValidator.checkPropertyName, HashSet.mem_insert, reports.holds, mem_append,
      mem_singleton]
    exact or_comm
  · intro issue
    rw [QueryValidator.checkPropertyName]
    have membership := reports.holds (effectiveName property)
    constructor
    · intro isIssue
      by_cases present : effectiveName property ∈ state.1.elements
      · simp only [if_pos present] at isIssue
        rcases mem_append.mp isIssue with earlier | added
        · rcases (reports.errors issue).mp earlier with before | ⟨name, twice, same⟩
          · exact .inl before
          · exact .inr ⟨name, twice_concat.mpr (.inl twice), same⟩
        · exact .inr ⟨effectiveName property,
            twice_concat.mpr (.inr ⟨rfl, membership.mp present⟩), mem_singleton.mp added⟩
      · simp only [if_neg present] at isIssue
        rcases (reports.errors issue).mp isIssue with before | ⟨name, twice, same⟩
        · exact .inl before
        · exact .inr ⟨name, twice_concat.mpr (.inl twice), same⟩
    · rintro (before | ⟨name, twice, same⟩)
      · have earlier := (reports.errors issue).mpr (.inl before)
        split
        · exact mem_append_left _ earlier
        · exact earlier
      · rcases twice_concat.mp twice with before | ⟨rfl, isSeen⟩
        · have earlier := (reports.errors issue).mpr (.inr ⟨name, before, same⟩)
          split
          · exact mem_append_left _ earlier
          · exact earlier
        · simp only [if_pos (membership.mpr isSeen)]
          exact mem_append_right _ (mem_singleton.mpr same)

lemma ReportsNames.checkProperties {seen : List Text} (properties : List RedfishProperty)
    (reports : ReportsNames path Before seen state) :
    ReportsNames path Before (seen ++ properties.map effectiveName)
      (properties.foldl (QueryValidator.checkPropertyName path) state) := by
  induction properties generalizing seen state with
  | nil =>
    rw [map_nil, append_nil]
    exact reports
  | cons property rest ih =>
    have later := ih (reports.checkPropertyName property)
    rw [append_assoc] at later
    exact later

/-- A property of a subquery appears under a name. -/
def HasName (subquery : Subquery) (name : Text) : Prop :=
  name ∈ subquery.properties.map effectiveName

def firstWithId (subqueries : List Subquery) (id : Text) : Option Subquery :=
  subqueries.find? fun subquery => subquery.subqueryId == id

lemma firstWithId_concat (subqueries : List Subquery) (subquery : Subquery) (id : Text) :
    firstWithId (subqueries ++ [subquery]) id =
      (firstWithId subqueries id).or
        (if subquery.subqueryId = id then some subquery else none) := by
  unfold firstWithId
  rw [find?_append, find?_singleton]
  by_cases same : subquery.subqueryId = id
  · rw [if_pos same, if_pos (by simpa using same)]
  · rw [if_neg same, if_neg (by simpa using same)]

variable {subqueries : List Subquery}

lemma firstWithId_eq_some {id : Text} {first : Subquery}
    (found : firstWithId subqueries id = some first) :
    first ∈ subqueries ∧ first.subqueryId = id := by
  refine ⟨mem_of_find?_eq_some found, ?_⟩
  simpa using find?_some found

/-- The pass comes to a subquery under a root whose property has the id as its name. -/
def Sees (subqueries : List Subquery) (subqueryId rootId : Text) : Prop :=
  ∃ before subquery after, subqueries = before ++ subquery :: after ∧
    subquery.subqueryId = subqueryId ∧ rootId ∈ subquery.rootSubqueryIds ∧
    ∃ first, firstWithId (before ++ [subquery]) rootId = some first ∧ HasName first subqueryId

lemma sees_concat {subquery : Subquery} {subqueryId rootId : Text} :
    Sees (subqueries ++ [subquery]) subqueryId rootId ↔
      Sees subqueries subqueryId rootId ∨
        subquery.subqueryId = subqueryId ∧ rootId ∈ subquery.rootSubqueryIds ∧
        ∃ first, firstWithId (subqueries ++ [subquery]) rootId = some first ∧
          HasName first subqueryId := by
  constructor
  · rintro ⟨before, found, after, split, sameId, isRoot, first⟩
    rcases eq_nil_or_concat after with rfl | ⟨later, last, rfl⟩
    · rcases append_inj' split rfl with ⟨rfl, same⟩
      cases same
      exact .inr ⟨sameId, isRoot, first⟩
    · rw [concat_eq_append, <- cons_append, <- append_assoc] at split
      rcases append_inj' split rfl with ⟨rfl, _⟩
      exact .inl ⟨before, found, later, rfl, sameId, isRoot, first⟩
  · rintro (⟨before, found, after, rfl, rest⟩ | ⟨sameId, isRoot, first⟩)
    · refine ⟨before, found, after ++ [subquery], ?_, rest⟩
      rw [append_assoc, cons_append]
    · exact ⟨subqueries, subquery, [], rfl, sameId, isRoot, first⟩

/-- The names under an id are those of the first subquery with it. -/
structure HoldsNames (map : HashMap Text (HashSet Text)) (subqueries : List Subquery) : Prop where
  present : ∀ id, (map.lookup id).isSome = (firstWithId subqueries id).isSome
  names : ∀ id name,
    (∃ names, map.lookup id = some names ∧ name ∈ names.elements) ↔
      ∃ first, firstWithId subqueries id = some first ∧ HasName first name

lemma HoldsNames.insert {map : HashMap Text (HashSet Text)} {subqueries : List Subquery}
    {subquery : Subquery} {names : HashSet Text} (holds : HoldsNames map subqueries)
    (ofSubquery : ∀ name, name ∈ names.elements ↔ HasName subquery name) :
    HoldsNames (map.insert subquery.subqueryId names) (subqueries ++ [subquery]) := by
  constructor
  · intro id
    rw [HashMap.lookup_insert, firstWithId_concat, isSome_or, <- holds.present]
    by_cases isId : id = subquery.subqueryId
    · subst isId
      simp
    · rw [beq_false_of_ne isId, if_neg (Ne.symm isId)]
      simp
  · intro id name
    rw [HashMap.lookup_insert, firstWithId_concat]
    by_cases isId : id = subquery.subqueryId
    · subst isId
      have present := holds.present subquery.subqueryId
      have known := holds.names subquery.subqueryId name
      rw [beq_self_eq_true]
      cases found : map.lookup subquery.subqueryId with
      | some current =>
        rw [found] at present known
        rcases isSome_iff_exists.mp present.symm with ⟨first, isFirst⟩
        rw [isFirst] at known ⊢
        exact known
      | none =>
        rw [found] at present
        have notThere : firstWithId subqueries subquery.subqueryId = none := by
          simpa using present.symm
        rw [notThere]
        simp [ofSubquery]
    · rw [beq_false_of_ne isId, if_neg (Ne.symm isId), or_none]
      exact holds.names id name

lemma mem_checkForSubqueryIdRootPropertyConflicts {subquery : Subquery}
    {map : HashMap Text (HashSet Text)} (holds : HoldsNames map subqueries) {issue : Issue} :
    issue ∈ checkForSubqueryIdRootPropertyConflicts subquery map path ↔
      ∃ rootId, (rootId ∈ subquery.rootSubqueryIds ∧
        ∃ first, firstWithId subqueries rootId = some first ∧ HasName first subquery.subqueryId) ∧
        issue = ⟨.conflictingIds, rootPropertyMessage subquery.subqueryId rootId, path⟩ := by
  unfold checkForSubqueryIdRootPropertyConflicts
  rw [mem_filterMap]
  constructor
  · rintro ⟨rootId, isRoot, isIssue⟩
    cases found : map.lookup rootId with
    | none =>
      rw [found] at isIssue
      cases isIssue
    | some names =>
      rw [found] at isIssue
      dsimp only at isIssue
      split at isIssue
      · rename_i isName
        cases isIssue
        exact ⟨rootId, ⟨isRoot, (holds.names rootId _).mp ⟨names, found, isName⟩⟩, rfl⟩
      · cases isIssue
  · rintro ⟨rootId, ⟨isRoot, first⟩, rfl⟩
    rcases (holds.names rootId _).mpr first with ⟨names, found, isName⟩
    refine ⟨rootId, isRoot, ?_⟩
    rw [found]
    exact if_pos isName

def Reported (path : Text) (subqueries : List Subquery) (issue : Issue) : Prop :=
  (∃ id, Twice (rootPairs subqueries) id ∧
      issue = ⟨.conflictingIds, duplicateIdMessage id, path⟩) ∨
    (∃ name, (∃ subquery ∈ subqueries,
        2 <= (subquery.properties.map effectiveName).count name) ∧
      issue = ⟨.conflictingIds, duplicatePropertyMessage name, path⟩) ∨
    ∃ subqueryId rootId, Sees subqueries subqueryId rootId ∧
      issue = ⟨.conflictingIds, rootPropertyMessage subqueryId rootId, path⟩

/-- The variables of the pass after some of the subqueries. -/
structure Passed (path : Text) (subqueries : List Subquery) (state : IdState) : Prop where
  names : HoldsNames state.subqueryIdToPropertyNames subqueries
  children : Holds state.parentToChildSubqueries (rootPairs subqueries)
  errors : ∀ issue, issue ∈ state.errors ↔ Reported path subqueries issue

lemma rootPairs_concat (subqueries : List Subquery) (subquery : Subquery) :
    rootPairs (subqueries ++ [subquery]) =
      rootPairs subqueries ++
        (rootIdsOrTopLevel subquery).map fun rootId => (rootId, subquery.subqueryId) := by
  rw [rootPairs, flatMap_append, flatMap_cons, flatMap_nil, append_nil]
  rfl

lemma Passed.checkSubquery {state : IdState} (passed : Passed path subqueries state)
    (subquery : Subquery) :
    Passed path (subqueries ++ [subquery]) (checkSubquery path state subquery) := by
  -- Issues of the other kinds, which are there before and stay.
  let Others : Issue -> Prop := fun issue =>
    (∃ name, (∃ subquery ∈ subqueries,
        2 <= (subquery.properties.map effectiveName).count name) ∧
      issue = ⟨.conflictingIds, duplicatePropertyMessage name, path⟩) ∨
    ∃ subqueryId rootId, Sees subqueries subqueryId rootId ∧
      issue = ⟨.conflictingIds, rootPropertyMessage subqueryId rootId, path⟩
  have start : ReportsIds path Others (rootPairs subqueries)
      (state.parentToChildSubqueries, state.errors) := by
    refine ⟨passed.children, ?_⟩
    intro issue
    rw [passed.errors]
    exact or_comm
  have ids := start.checkForDuplicateSubqueryIds subquery
  rw [<- rootPairs_concat] at ids
  have none_ : ReportsNames path
      (fun issue => issue ∈
        (checkForDuplicateSubqueryIds subquery path
          (state.parentToChildSubqueries, state.errors)).2) []
      (HashSet.empty, (checkForDuplicateSubqueryIds subquery path
        (state.parentToChildSubqueries, state.errors)).2) := by
    constructor
    · exact fun name => .rfl
    · intro issue
      constructor
      · exact .inl
      · rintro (before | ⟨name, twice, _⟩)
        · exact before
        · exact absurd twice (by simp)
  have ofProperties := none_.checkProperties subquery.properties
  have names := @HoldsNames.insert _ _ subquery _ passed.names ofProperties.holds
  refine ⟨names, ids.holds, ?_⟩
  intro issue
  unfold QueryValidator.checkSubquery
  rw [mem_append, ofProperties.errors, ids.errors,
    mem_checkForSubqueryIdRootPropertyConflicts names]
  constructor
  · rintro ((((⟨name, ⟨other, isOther, twice⟩, same⟩ | ⟨id, rootId, sees, same⟩) |
        ⟨id, twice, same⟩) | ⟨name, twice, same⟩) | ⟨rootId, ⟨isRoot, first⟩, same⟩)
    · exact .inr (.inl ⟨name, ⟨other, mem_append_left _ isOther, twice⟩, same⟩)
    · exact .inr (.inr ⟨id, rootId, sees_concat.mpr (.inl sees), same⟩)
    · exact .inl ⟨id, twice, same⟩
    · exact .inr (.inl ⟨name, ⟨subquery, mem_append_right _ (mem_singleton_self _), twice⟩, same⟩)
    · exact .inr (.inr ⟨subquery.subqueryId, rootId,
        sees_concat.mpr (.inr ⟨rfl, isRoot, first⟩), same⟩)
  · rintro (⟨id, twice, same⟩ | ⟨name, ⟨other, isOther, twice⟩, same⟩ | ⟨id, rootId, sees, same⟩)
    · exact .inl (.inl (.inr ⟨id, twice, same⟩))
    · rcases mem_append.mp isOther with earlier | isLast
      · exact .inl (.inl (.inl (.inl ⟨name, ⟨other, earlier, twice⟩, same⟩)))
      · rw [mem_singleton.mp isLast] at twice
        exact .inl (.inr ⟨name, twice, same⟩)
    · rcases sees_concat.mp sees with earlier | ⟨rfl, isRoot, first⟩
      · exact .inl (.inl (.inl (.inr ⟨id, rootId, earlier, same⟩)))
      · exact .inr ⟨rootId, ⟨isRoot, first⟩, same⟩

lemma passed_nil (path : Text) : Passed path [] ⟨.empty, .empty, []⟩ := by
  refine ⟨⟨fun _ => rfl, ?_⟩, ?_, ?_⟩
  · intro id name
    constructor
    · rintro ⟨names, impossible, _⟩
      cases impossible
    · rintro ⟨first, impossible, _⟩
      cases impossible
  · intro rootId subqueryId
    constructor
    · rintro ⟨children, impossible, _⟩
      cases impossible
    · intro impossible
      cases impossible
  · intro issue
    constructor
    · intro impossible
      cases impossible
    · rintro (⟨id, ⟨rootId, twice⟩, _⟩ | ⟨name, ⟨subquery, impossible, _⟩, _⟩ |
        ⟨id, rootId, ⟨before, subquery, after, split, _⟩, _⟩)
      · exact absurd twice (by simp [rootPairs])
      · cases impossible
      · exact absurd split.symm (append_ne_nil_of_right_ne_nil _ (cons_ne_nil _ _))

lemma mem_testForConflictingIds {redpathQuery : DelliciusQuery} {issue : Issue} :
    issue ∈ testForConflictingIds redpathQuery path [] ↔
      Reported path redpathQuery.subquery issue := by
  have run : ∀ (rest done : List Subquery) (state : IdState), Passed path done state ->
      Passed path (done ++ rest) (rest.foldl (checkSubquery path) state) := by
    intro rest
    induction rest with
    | nil =>
      intro done state passed
      rw [append_nil]
      exact passed
    | cons subquery rest ih =>
      intro done state passed
      have later := ih _ _ (passed.checkSubquery subquery)
      rw [append_assoc] at later
      exact later
  exact (run redpathQuery.subquery [] _ (passed_nil path)).errors issue

end Ecclesia.QueryValidator
