import Ecclesia.StepPlanner.Linking

namespace Ecclesia.StepPlanner

open List

/-!
# The handles of a query

The factory starts the recursion once for each subquery.  Afterwards every subquery has a
handle and no chain is left, so that all of them are settled and the links are those of the
query.
-/

section

variable {query : DelliciusQuery}

/-- What holds between the subqueries of the query. -/
structure Collecting (query : DelliciusQuery) (done : List Subquery) (state : HandleMap) :
    Prop where
  present : ∀ subquery ∈ done, subquery.subqueryId ∈ state.keys
  consistent : Consistent query [] state
  links : ∀ parent child, linkCount state parent child = newLinks query .empty state parent child

variable (distinct : (query.subquery.map Subquery.subqueryId).Nodup)

include distinct

lemma handles_ends {bound : Nat} (enough : query.subquery.length < bound) :
    (query.subquery.foldlM
      (fun built subquery => buildSubqueryHandleChain (idToSubquery query) bound
        subquery.subqueryId ⟨[], nodup_nil⟩ none built)
      (.empty : HandleMap)).Ends False (fun _ => ¬ WellLinked query)
      (Collecting query query.subquery) := by
  apply Bounded.Ends.foldlM (Collecting query)
  · refine ⟨forall_mem_nil _, ⟨?_, ?_⟩, ?_⟩
    · intro subqueryId handle found
      cases found
    · intro subqueryId isKey
      cases isKey
    · intro parent child
      rfl
  · intro done subquery later state split collecting
    have isSubquery : subquery ∈ query.subquery := by
      rw [split]
      exact mem_append_right _ (.head _)
    have ready : Ready query subquery.subqueryId [] state :=
      ⟨.inl (mem_map.mpr ⟨subquery, isSubquery, rfl⟩),
        forall_mem_nil _,
        forall_mem_nil _, collecting.consistent⟩
    apply Bounded.Ends.weaken (buildSubqueryHandleChain_ends distinct bound subquery.subqueryId
      ⟨[], nodup_nil⟩ none state ready enough) id (fun _ => id)
    intro after built
    constructor
    · intro other isDone
      rcases mem_append.mp isDone with before | isLast
      · exact built.grown _ (collecting.present other before)
      · rw [mem_singleton.mp isLast]
        exact built.present
    · exact built.consistent
    · intro parent child
      have noneBefore : ∀ other ∈ (HashMap.empty : HandleMap).keys,
          other ∈ state.keys := forall_mem_nil _
      rw [built.links, collecting.links, newLinks_trans noneBefore built.grown]
      simp

/-- The handles of a query are those of its subqueries, linked as the subqueries are. -/
structure Mirrors (query : DelliciusQuery) (handles : List SubqueryHandle) : Prop where
  subqueries : (handles.map SubqueryHandle.subquery).Perm query.subquery
  links : ∀ parent ∈ handles, ∀ child ∈ handles,
    parent.childSubqueryHandles.count child.subquery.subqueryId =
      if parent.subquery.subqueryId ∈ child.subquery.rootSubqueryIds then 1 else 0
  children : ∀ parent ∈ handles, ∀ childId ∈ parent.childSubqueryHandles,
      ∃ child ∈ handles, child.subquery.subqueryId = childId

variable {handles : HandleMap}

omit distinct in
lemma lookup_of_mem_entries {done : List Subquery} (collecting : Collecting query done handles)
    {entry : Text × SubqueryHandle} (isEntry : entry ∈ handles.entries) :
    handles.lookup entry.2.subquery.subqueryId = some entry.2 ∧
      entry.2.subquery ∈ query.subquery ∧ entry.2.subquery.subqueryId = entry.1 := by
  rcases entry with ⟨subqueryId, handle⟩
  have found : handles.lookup subqueryId = some handle :=
    (lookup_eq_some_iff_mem handles.distinct).mpr isEntry
  rcases collecting.consistent.owned subqueryId handle found with ⟨isSubquery, sameId⟩
  refine ⟨?_, isSubquery, sameId⟩
  rw [show handle.subquery.subqueryId = subqueryId from sameId]
  exact found

omit distinct in
lemma exists_entry_of_mem_keys {done : List Subquery} (collecting : Collecting query done handles)
    {subqueryId : Text} (isKey : subqueryId ∈ handles.keys) :
    ∃ handle, (subqueryId, handle) ∈ handles.entries ∧ handle.subquery.subqueryId = subqueryId := by
  rcases Option.isSome_iff_exists.mp ((HashMap.lookup_isSome handles subqueryId).mpr isKey) with
    ⟨handle, found⟩
  exact ⟨handle, (lookup_eq_some_iff_mem handles.distinct).mp found,
    (collecting.consistent.owned subqueryId handle found).2⟩

lemma subqueries_perm (collecting : Collecting query query.subquery handles) :
    (handles.entries.map fun entry => entry.2.subquery).Perm query.subquery := by
  have sameKeys : (handles.entries.map fun entry => entry.2.subquery).map Subquery.subqueryId =
      handles.entries.map Prod.fst := by
    rw [map_map]
    apply map_congr_left
    exact fun entry isEntry => (lookup_of_mem_entries collecting isEntry).2.2
  have once : (handles.entries.map fun entry => entry.2.subquery).Nodup := by
    apply Nodup.of_map Subquery.subqueryId
    rw [sameKeys]
    exact handles.distinct
  apply (perm_ext_iff_of_nodup once (Nodup.of_map _ distinct)).mpr
  intro subquery
  constructor
  · intro isHandled
    rcases mem_map.mp isHandled with ⟨entry, isEntry, rfl⟩
    exact (lookup_of_mem_entries collecting isEntry).2.1
  · intro isSubquery
    rcases exists_entry_of_mem_keys collecting (collecting.present subquery isSubquery) with
      ⟨handle, isEntry, sameId⟩
    have owned := (lookup_of_mem_entries collecting isEntry).2.1
    rw [<- eq_of_subqueryId distinct owned isSubquery sameId]
    exact mem_map.mpr ⟨_, isEntry, rfl⟩

lemma Collecting.mirrors (collecting : Collecting query query.subquery handles)
    (rootsOnce : ∀ subquery ∈ query.subquery, subquery.rootSubqueryIds.Nodup)
    (order : IterationOrder (Text × SubqueryHandle)) :
    Mirrors query ((order.iterate handles.entries).map Prod.snd) where
  subqueries := by
    rw [map_map]
    exact ((order.perm handles.entries).map _).trans (subqueries_perm distinct collecting)
  links := by
    intro parent isParent child isChild
    rcases mem_map.mp isParent with ⟨parentEntry, inParents, rfl⟩
    rcases mem_map.mp isChild with ⟨childEntry, inChildren, rfl⟩
    have atParent := lookup_of_mem_entries collecting (order.mem_iterate.mp inParents)
    have atChild := lookup_of_mem_entries collecting (order.mem_iterate.mp inChildren)
    have isKey : childEntry.2.subquery.subqueryId ∈ handles.keys := by
      rw [<- HashMap.lookup_isSome, atChild.1]
      rfl
    have links := collecting.links parentEntry.2.subquery.subqueryId
      childEntry.2.subquery.subqueryId
    unfold linkCount newLinks rootCount at links
    rw [atParent.1, if_pos ⟨isKey, not_mem_nil⟩,
      (lookup_idToSubquery distinct).mpr ⟨atChild.2.1, rfl⟩] at links
    exact links.trans (rootsOnce _ atChild.2.1).count
  children := by
    intro parent isParent childId isChild
    rcases mem_map.mp isParent with ⟨parentEntry, inParents, rfl⟩
    have atParent := lookup_of_mem_entries collecting (order.mem_iterate.mp inParents)
    have links := collecting.links parentEntry.2.subquery.subqueryId childId
    unfold linkCount newLinks at links
    rw [atParent.1] at links
    have isKey : childId ∈ handles.keys := by
      by_contra absent
      rw [if_neg fun both => absent both.1] at links
      exact absurd isChild (count_eq_zero.mp links)
    rcases exists_entry_of_mem_keys collecting isKey with ⟨handle, isEntry, sameId⟩
    exact ⟨handle, mem_map.mpr ⟨_, order.mem_iterate.mpr isEntry, rfl⟩, sameId⟩

omit distinct in
lemma Collecting.settled {handles : HandleMap}
    (collecting : Collecting query query.subquery handles) : ∀ subquery ∈ query.subquery,
      Settled query subquery.subqueryId :=
  fun subquery isSubquery => collecting.consistent.settled _
    (collecting.present subquery isSubquery) not_mem_nil

end

/-- The factory makes handles exactly for a well linked query, and they mirror its subqueries and
links. -/
theorem getSubqueryHandles_mirrors : ∀ (order : IterationOrder (Text × SubqueryHandle))
    (query : DelliciusQuery) (bound : Nat), query.subquery ≠ [] ->
    (query.subquery.map Subquery.subqueryId).Nodup ->
    (∀ subquery ∈ query.subquery, subquery.rootSubqueryIds.Nodup) ->
    query.subquery.length < bound ->
    ∃ outcome, ExceptT.run (getSubqueryHandles order bound query) = some outcome ∧
      ((∃ handles, outcome = .ok handles) ↔ WellLinked query) ∧
      ∀ handles, outcome = .ok handles -> Mirrors query handles := by
  intro order query bound nonempty distinct rootsOnce enough
  have ends : (getSubqueryHandles order bound query).Ends False (fun _ => ¬ WellLinked query)
      (fun handles => WellLinked query ∧ Mirrors query handles) := by
    apply Bounded.Ends.bind (handles_ends distinct enough)
    intro handles collecting
    have mirrors := collecting.mirrors distinct rootsOnce order
    have some : ((order.iterate handles.entries).map Prod.snd).isEmpty = false := by
      rw [Bool.eq_false_iff]
      intro empty
      have none := mirrors.subqueries
      rw [List.isEmpty_iff.mp empty] at none
      exact nonempty (List.nil_perm.mp none)
    simp only [some]
    exact .pure ⟨wellLinked_of_settled distinct collecting.settled, mirrors⟩
  unfold Bounded.Ends at ends
  cases ended : ExceptT.run (getSubqueryHandles order bound query) with
  | none =>
    rw [ended] at ends
    exact ends.elim
  | some outcome =>
    rw [ended] at ends
    refine ⟨outcome, rfl, ?_⟩
    cases outcome with
    | error status =>
      refine ⟨⟨?_, fun wellLinked => absurd wellLinked ends⟩, ?_⟩
      · rintro ⟨handles, impossible⟩
        cases impossible
      · intro handles impossible
        cases impossible
    | ok handles =>
      refine ⟨⟨fun _ => ends.1, fun _ => ⟨handles, rfl⟩⟩, ?_⟩
      intro others same
      cases same
      exact ends.2

/-- The sensors of each chassis, with the child listed first. -/
def sensorsOfChassis : DelliciusQuery where
  queryId := text "Sensors"
  subquery :=
    [{ Subquery.empty with
        subqueryId := text "GetSensors"
        rootSubqueryIds := [text "GetChassis"]
        resource := .redpath (text "/Sensors[*]") },
      { Subquery.empty with
        subqueryId := text "GetChassis"
        resource := .redpath (text "/Chassis[*]") }]
  serviceRoot := none

theorem getSubqueryHandles_mirrors_sensors :
    ∃ outcome, ExceptT.run (getSubqueryHandles (.listed _) 3 sensorsOfChassis) = some outcome ∧
      ((∃ handles, outcome = .ok handles) ↔ WellLinked sensorsOfChassis) ∧
      ∀ handles, outcome = .ok handles -> Mirrors sensorsOfChassis handles :=
  getSubqueryHandles_mirrors (.listed _) sensorsOfChassis 3 (by decide) (by decide) (by decide)
    (by decide)

/-- Both handles, where that of the chassis has the other one as its child. -/
example : (ExceptT.run (getSubqueryHandles (.listed _) 3 sensorsOfChassis)).map
    (fun outcome => outcome.toOption.map fun handles => handles.map fun handle =>
      (handle.subquery.subqueryId, handle.nodes, handle.predicates, handle.childSubqueryHandles)) =
    some (some
      [(text "GetSensors", [text "Sensors"], [text "*"], []),
        (text "GetChassis", [text "Chassis"], [text "*"], [text "GetSensors"])]) := by
  rfl

end Ecclesia.StepPlanner
