import Ecclesia.QueryValidator.ConflictingIds
import Mathlib.Data.List.Perm.Basic

namespace Ecclesia.QueryValidator

open Absl List

/-!
# Orders of subqueries

An id or a name that comes twice is reported in every order of the subqueries.  Whether a subquery
whose id is the name of a property of its root is reported depends on whether the pass has come to
the root, and on which subquery with the root's id it has come to first.
-/

variable (redpathQuery : DelliciusQuery)

/-- The message of an issue about ids that a query gets. -/
def Reports (path message : Text) : Prop :=
  ∃ issue ∈ testForConflictingIds redpathQuery path [],
    issue.type = .conflictingIds ∧ issue.message = message

def IsUnder (subqueryId rootId : Text) : Prop :=
  ∃ subquery ∈ redpathQuery.subquery, subquery.subqueryId = subqueryId ∧
    rootId ∈ subquery.rootSubqueryIds

/-- The same messages are reported in every order, and a conflict with a root always. -/
structure ReportsInAnyOrder (path : Text) : Prop where
  same : ∀ subqueries : List Subquery, subqueries.Perm redpathQuery.subquery ->
    ∀ message : Text,
      Reports { redpathQuery with subquery := subqueries } path message ↔
        Reports redpathQuery path message
  reported : ∀ subqueries : List Subquery, subqueries.Perm redpathQuery.subquery ->
    ∀ (subqueryId : Text) (root : Subquery), root ∈ redpathQuery.subquery ->
      IsUnder redpathQuery subqueryId root.subqueryId -> HasName root subqueryId ->
      Reports { redpathQuery with subquery := subqueries } path
        (rootPropertyMessage subqueryId root.subqueryId)

/-- A subquery whose id is the name of a property of a root has the root's own id. -/
def OnlyOwnRoots : Prop :=
  ∀ (subqueryId : Text) (root : Subquery), root ∈ redpathQuery.subquery ->
    IsUnder redpathQuery subqueryId root.subqueryId -> HasName root subqueryId ->
    subqueryId = root.subqueryId ∧
      ∀ other ∈ redpathQuery.subquery, other.subqueryId = root.subqueryId ->
        HasName other subqueryId

/-- The message about two ids is not one about two others. -/
def Unambiguous : Prop :=
  ∀ subqueryId rootId otherId otherRootId : Text,
    IsUnder redpathQuery subqueryId rootId -> IsUnder redpathQuery otherId otherRootId ->
    rootPropertyMessage subqueryId rootId = rootPropertyMessage otherId otherRootId ->
    subqueryId = otherId ∧ rootId = otherRootId

lemma reports_iff {redpathQuery : DelliciusQuery} {path message : Text} :
    Reports redpathQuery path message ↔
      (∃ id, Twice (rootPairs redpathQuery.subquery) id ∧ message = duplicateIdMessage id) ∨
        (∃ name, (∃ subquery ∈ redpathQuery.subquery,
            2 <= (subquery.properties.map effectiveName).count name) ∧
          message = duplicatePropertyMessage name) ∨
        ∃ subqueryId rootId, Sees redpathQuery.subquery subqueryId rootId ∧
          message = rootPropertyMessage subqueryId rootId := by
  constructor
  · rintro ⟨issue, isIssue, _, rfl⟩
    rcases mem_testForConflictingIds.mp isIssue with
      ⟨id, twice, rfl⟩ | ⟨name, found, rfl⟩ | ⟨id, rootId, sees, rfl⟩
    · exact .inl ⟨id, twice, rfl⟩
    · exact .inr (.inl ⟨name, found, rfl⟩)
    · exact .inr (.inr ⟨id, rootId, sees, rfl⟩)
  · rintro (⟨id, twice, rfl⟩ | ⟨name, found, rfl⟩ | ⟨id, rootId, sees, rfl⟩)
    · exact ⟨_, mem_testForConflictingIds.mpr (.inl ⟨id, twice, rfl⟩), rfl, rfl⟩
    · exact ⟨_, mem_testForConflictingIds.mpr (.inr (.inl ⟨name, found, rfl⟩)), rfl, rfl⟩
    · exact ⟨_, mem_testForConflictingIds.mpr (.inr (.inr ⟨id, rootId, sees, rfl⟩)), rfl, rfl⟩

/-- The messages of the other kinds begin with another letter. -/
lemma reports_rootProperty_iff {redpathQuery : DelliciusQuery} {path subqueryId rootId : Text} :
    Reports redpathQuery path (rootPropertyMessage subqueryId rootId) ↔
      ∃ otherId otherRootId, Sees redpathQuery.subquery otherId otherRootId ∧
        rootPropertyMessage subqueryId rootId = rootPropertyMessage otherId otherRootId := by
  have starts : (rootPropertyMessage subqueryId rootId).head? = some 'S' := rfl
  rw [reports_iff]
  constructor
  · rintro (⟨id, _, same⟩ | ⟨name, _, same⟩ | sees)
    · rw [same] at starts
      cases starts
    · rw [same] at starts
      cases starts
    · exact sees
  · exact fun sees => .inr (.inr sees)

section

variable {subqueries : List Subquery} {redpathQuery : DelliciusQuery} {subqueryId rootId : Text}

lemma Sees.isUnder (sees : Sees redpathQuery.subquery subqueryId rootId) :
    IsUnder redpathQuery subqueryId rootId := by
  rcases sees with ⟨before, subquery, after, split, sameId, isRoot, _⟩
  refine ⟨subquery, ?_, sameId, isRoot⟩
  rw [split]
  exact mem_append_right _ (.head _)

lemma Sees.root (sees : Sees subqueries subqueryId rootId) :
    ∃ root ∈ subqueries, root.subqueryId = rootId ∧ HasName root subqueryId := by
  rcases sees with ⟨before, subquery, after, split, _, _, first, isFirst, hasName⟩
  rcases firstWithId_eq_some isFirst with ⟨member, sameId⟩
  refine ⟨first, ?_, sameId, hasName⟩
  rw [split]
  rcases mem_append.mp member with inside | isLast
  · exact mem_append_left _ inside
  · rw [mem_singleton.mp isLast]
    exact mem_append_right _ (.head _)

lemma sees_own {subquery : Subquery} (member : subquery ∈ subqueries)
    (isRoot : subquery.subqueryId ∈ subquery.rootSubqueryIds)
    (all : ∀ other ∈ subqueries, other.subqueryId = subquery.subqueryId ->
      HasName other subquery.subqueryId) :
    Sees subqueries subquery.subqueryId subquery.subqueryId := by
  rcases append_of_mem member with ⟨before, after, rfl⟩
  refine ⟨before, subquery, after, rfl, rfl, isRoot, ?_⟩
  have isThere : (firstWithId (before ++ [subquery]) subquery.subqueryId).isSome = true := by
    rw [firstWithId_concat]
    simp
  rcases Option.isSome_iff_exists.mp isThere with ⟨first, isFirst⟩
  rcases firstWithId_eq_some isFirst with ⟨inside, sameId⟩
  refine ⟨first, isFirst, all first ?_ sameId⟩
  rcases mem_append.mp inside with earlier | isLast
  · exact mem_append_left _ earlier
  · rw [mem_singleton.mp isLast]
    exact mem_append_right _ (.head _)

lemma sees_of_first {root subquery : Subquery} {rest : List Subquery}
    (member : subquery ∈ root :: rest) (isRoot : root.subqueryId ∈ subquery.rootSubqueryIds)
    (hasName : HasName root subquery.subqueryId) :
    Sees (root :: rest) subquery.subqueryId root.subqueryId := by
  have isFirst : ∀ more, firstWithId (root :: more) root.subqueryId = some root := by
    intro more
    rw [firstWithId, find?_cons_of_pos (by simp)]
  rcases append_of_mem member with ⟨before, after, split⟩
  refine ⟨before, subquery, after, split, rfl, isRoot, root, ?_, hasName⟩
  cases before with
  | nil =>
    cases split
    exact isFirst []
  | cons other more =>
    cases split
    exact isFirst _

lemma not_sees_of_first {root : Subquery} {rest : List Subquery}
    (noName : ¬ HasName root subqueryId) : ¬ Sees (root :: rest) subqueryId root.subqueryId := by
  rintro ⟨before, subquery, after, split, _, _, first, isFirst, hasName⟩
  have same : first = root := by
    cases before with
    | nil =>
      cases split
      rw [nil_append, firstWithId, find?_cons_of_pos (by simp)] at isFirst
      exact (Option.some.inj isFirst).symm
    | cons other more =>
      cases split
      rw [cons_append, firstWithId, find?_cons_of_pos (by simp)] at isFirst
      exact (Option.some.inj isFirst).symm
  rw [same] at hasName
  exact noName hasName

def idFirst (subqueryId : Text) (subqueries : List Subquery) : List Subquery :=
  subqueries.filter (fun subquery => subquery.subqueryId == subqueryId) ++
    subqueries.filter fun subquery => !(subquery.subqueryId == subqueryId)

lemma idFirst_perm : (idFirst subqueryId subqueries).Perm subqueries := filter_append_perm _ _

lemma not_sees_idFirst (other : subqueryId ≠ rootId) :
    ¬ Sees (idFirst subqueryId subqueries) subqueryId rootId := by
  rintro ⟨before, subquery, after, split, sameId, _, first, isFirst, _⟩
  rcases firstWithId_eq_some isFirst with ⟨member, isRoot⟩
  have inFront : ∀ early ∈ before ++ [subquery], early.subqueryId = subqueryId := by
    intro early isEarly
    rcases append_eq_append_iff.mp split with ⟨more, isBefore, isRest⟩ | ⟨more, isFront, _⟩
    · -- The subquery would be among those with another id.
      have inRest : subquery ∈
          subqueries.filter fun subquery => !(subquery.subqueryId == subqueryId) := by
        rw [isRest]
        exact mem_append_right _ (.head _)
      have otherId := (mem_filter.mp inRest).2
      rw [sameId] at otherId
      simp at otherId
    · rcases mem_append.mp isEarly with inside | isLast
      · have inFront : early ∈
            subqueries.filter fun subquery => subquery.subqueryId == subqueryId := by
          rw [isFront]
          exact mem_append_left _ inside
        simpa using (mem_filter.mp inFront).2
      · rw [mem_singleton.mp isLast]
        exact sameId
  apply other
  rw [<- inFront first member, isRoot]

variable {path : Text}

lemma sees_perm_of_onlyOwnRoots (only : OnlyOwnRoots redpathQuery) {subqueries : List Subquery}
    (perm : subqueries.Perm redpathQuery.subquery) {subqueryId rootId : Text} :
    Sees subqueries subqueryId rootId ↔
      IsUnder redpathQuery subqueryId rootId ∧
        ∃ root ∈ redpathQuery.subquery, root.subqueryId = rootId ∧
          HasName root subqueryId := by
  constructor
  · intro sees
    have under : IsUnder { redpathQuery with subquery := subqueries } subqueryId rootId :=
      sees.isUnder
    rcases under with ⟨subquery, member, sameId, isRoot⟩
    rcases sees.root with ⟨root, isThere, same, hasName⟩
    exact ⟨⟨subquery, perm.mem_iff.mp member, sameId, isRoot⟩, root, perm.mem_iff.mp isThere, same,
      hasName⟩
  · rintro ⟨under, root, isThere, rfl, hasName⟩
    rcases only subqueryId root isThere under hasName with ⟨own, all⟩
    rcases under with ⟨subquery, member, sameId, isRoot⟩
    rw [<- own, <- sameId] at isRoot all ⊢
    exact sees_own (perm.mem_iff.mpr member) isRoot fun other isOther =>
      all other (perm.mem_iff.mp isOther)

/-- A conflict is reported if the root comes first, so the same messages in every order have it. -/
lemma reportsInAnyOrder_of_same
    (same : ∀ subqueries : List Subquery, subqueries.Perm redpathQuery.subquery ->
      ∀ message : Text,
        Reports { redpathQuery with subquery := subqueries } path message ↔
          Reports redpathQuery path message) : ReportsInAnyOrder redpathQuery path := by
  refine ⟨same, ?_⟩
  intro subqueries perm subqueryId root isThere ⟨subquery, member, sameId, isRoot⟩ hasName
  have rootFirst := (perm_cons_erase isThere).symm
  subst sameId
  rw [same subqueries perm, <- same _ rootFirst, reports_rootProperty_iff]
  exact ⟨_, _, sees_of_first (rootFirst.mem_iff.mpr member) isRoot hasName, rfl⟩

lemma reportsInAnyOrder_of_onlyOwnRoots (only : OnlyOwnRoots redpathQuery) :
    ReportsInAnyOrder redpathQuery path := by
  have sees := fun (subqueries : List Subquery) (perm : subqueries.Perm redpathQuery.subquery)
    (id rootId : Text) => @sees_perm_of_onlyOwnRoots redpathQuery only subqueries perm id rootId
  apply reportsInAnyOrder_of_same
  intro subqueries perm message
  have pairs := perm.flatMap_right fun subquery =>
    (rootIdsOrTopLevel subquery).map fun rootId => (rootId, subquery.subqueryId)
  have twice : ∀ id, Twice (rootPairs subqueries) id ↔
      Twice (rootPairs redpathQuery.subquery) id := by
    intro id
    unfold Twice rootPairs
    simp only [pairs.count_eq]
  have sameSees : ∀ id rootId, Sees subqueries id rootId ↔
      Sees redpathQuery.subquery id rootId := by
    intro id rootId
    rw [sees subqueries perm, sees redpathQuery.subquery (.refl _)]
  rw [reports_iff, reports_iff]
  simp only [twice, sameSees, perm.mem_iff]

lemma onlyOwnRoots_of_reportsInAnyOrder (unambiguous : Unambiguous redpathQuery)
    (reports : ReportsInAnyOrder redpathQuery path) : OnlyOwnRoots redpathQuery := by
  intro subqueryId root isThere under hasName
  -- What is seen in one order is seen in every order.
  have seen : ∀ subqueries : List Subquery, subqueries.Perm redpathQuery.subquery ->
      Sees subqueries subqueryId root.subqueryId := by
    intro subqueries perm
    rcases reports_rootProperty_iff.mp (reports.reported subqueries perm subqueryId root isThere
      under hasName) with ⟨otherId, otherRootId, sees, same⟩
    have otherUnder : IsUnder redpathQuery otherId otherRootId := by
      rcases sees.isUnder with ⟨subquery, member, rest⟩
      exact ⟨subquery, perm.mem_iff.mp member, rest⟩
    rcases unambiguous _ _ _ _ under otherUnder same with ⟨rfl, rfl⟩
    exact sees
  constructor
  · by_contra other
    exact not_sees_idFirst other (seen _ idFirst_perm)
  · intro other isOther sameId
    by_contra noName
    have first := seen (other :: redpathQuery.subquery.erase other) (perm_cons_erase isOther).symm
    rw [<- sameId] at first
    exact not_sees_of_first noName first

end

/-- If a subquery whose id is the name of a property of a root has the root's own id and all
subqueries with it have the name, then the order of the subqueries does not matter; it matters
otherwise if the messages tell the ids apart. -/
theorem testForConflictingIds_anyOrder :
    ∀ (redpathQuery : DelliciusQuery) (path : Text),
      (OnlyOwnRoots redpathQuery -> ReportsInAnyOrder redpathQuery path) ∧
      (Unambiguous redpathQuery ->
        (ReportsInAnyOrder redpathQuery path ↔ OnlyOwnRoots redpathQuery)) := by
  intro redpathQuery path
  refine ⟨reportsInAnyOrder_of_onlyOwnRoots, ?_⟩
  intro unambiguous
  exact ⟨onlyOwnRoots_of_reportsInAnyOrder unambiguous, reportsInAnyOrder_of_onlyOwnRoots⟩

/-- A subquery without a resource, with a property for each name. -/
def namedSubquery (subqueryId : Text) (rootSubqueryIds names : List Text) : Subquery :=
  { Subquery.empty with
    subqueryId := subqueryId
    rootSubqueryIds := rootSubqueryIds
    properties := names.map fun name => ⟨name, [], [], .undefined, .unspecified, false⟩ }

/-- The sensors of a chassis, which has no property of that name. -/
def sensorQuery : DelliciusQuery :=
  ⟨text "query", [namedSubquery (text "Chassis") [] [text "Name"],
    namedSubquery (text "Sensors") [text "Chassis"] [text "Reading"]], none⟩

lemma isUnder_sensorQuery {subqueryId rootId : Text}
    (under : IsUnder sensorQuery subqueryId rootId) :
    subqueryId = text "Sensors" ∧ rootId = text "Chassis" := by
  rcases under with ⟨subquery, member, rfl, isRoot⟩
  rcases mem_cons.mp member with rfl | later
  · cases isRoot
  · rw [mem_singleton.mp later] at isRoot ⊢
    exact ⟨rfl, mem_singleton.mp isRoot⟩

theorem testForConflictingIds_anyOrder_sensors :
    ReportsInAnyOrder sensorQuery (text "sensors.textproto") ∧
      (ReportsInAnyOrder sensorQuery (text "sensors.textproto") ↔ OnlyOwnRoots sensorQuery) := by
  constructor
  · apply (testForConflictingIds_anyOrder sensorQuery _).1
    intro subqueryId root isThere under hasName
    rw [(isUnder_sensorQuery under).1] at hasName
    rcases List.mem_cons.mp isThere with rfl | later
    · exact absurd hasName (by unfold HasName; decide)
    · rw [List.mem_singleton.mp later] at hasName
      exact absurd hasName (by unfold HasName; decide)
  · apply (testForConflictingIds_anyOrder sensorQuery _).2
    intro subqueryId rootId otherId otherRootId under otherUnder _
    rcases isUnder_sensorQuery under with ⟨rfl, rfl⟩
    rcases isUnder_sensorQuery otherUnder with ⟨rfl, rfl⟩
    exact ⟨rfl, rfl⟩

/-- A subquery before its root, which has a property of the name that is its id. -/
def nameBeforeRoot : DelliciusQuery :=
  ⟨text "query", [namedSubquery (text "Name") [text "Chassis"] [],
    namedSubquery (text "Chassis") [] [text "Name"]], none⟩

theorem testForConflictingIds_name_before_root :
    ¬ ∀ (redpathQuery : DelliciusQuery) (path : Text),
      ReportsInAnyOrder redpathQuery path := by
  intro always
  have reports := always nameBeforeRoot (text "name.textproto")
  have isThere : namedSubquery (text "Chassis") [] [text "Name"] ∈ nameBeforeRoot.subquery := by
    decide
  have reported := reports.reported nameBeforeRoot.subquery (.refl _) (text "Name") _
    isThere ⟨namedSubquery (text "Name") [text "Chassis"] [], by decide, rfl, by decide⟩
    (by unfold HasName; decide)
  rcases reported with ⟨issue, isIssue, _⟩
  have none_ : testForConflictingIds nameBeforeRoot (text "name.textproto") [] = [] := by
    decide +kernel
  cases isIssue

end Ecclesia.QueryValidator
