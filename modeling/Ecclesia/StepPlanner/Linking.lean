import Ecclesia.StepPlanner.Handles

namespace Ecclesia.StepPlanner

open Absl List
open Bounded (Ends)
open HashMap (lookup_assign mem_keys_assign)
open SubqueryHandle (construct subquery_link)

/-!
# The links of the handles

The recursion goes from a subquery to its roots.  The subqueries on the way are in the
chain, and a handle that is not of one of them is settled: its roots have handles that are
settled too.  So a cycle is met in the chain, before a handle can hide it.  What a call
adds to the links can be said exactly: the child it was called with, and the links of the
subqueries that had no handle before.
-/

variable {child : Option Text}

section

variable {query : DelliciusQuery}

def NamesRoot (query : DelliciusQuery) (subqueryId root : Text) : Prop :=
  ∃ subquery ∈ query.subquery, subquery.subqueryId = subqueryId ∧ root ∈ subquery.rootSubqueryIds

def Parses (subquery : Subquery) : Prop :=
  ∀ redpath, subquery.resource = .redpath redpath -> ∃ steps, redPathToSteps redpath = .ok steps

/-- The links lead to subqueries and not around, and every RedPath has steps. -/
structure WellLinked (query : DelliciusQuery) : Prop where
  known : ∀ subquery ∈ query.subquery, ∀ root ∈ subquery.rootSubqueryIds,
    root ∈ query.subquery.map Subquery.subqueryId
  acyclic : ∀ subquery ∈ query.subquery, ¬ ReachesCycle (NamesRoot query) subquery.subqueryId
  parses : ∀ subquery ∈ query.subquery, Parses subquery

variable {subqueryId : Text}

lemma lookup_idToSubquery (distinct : (query.subquery.map Subquery.subqueryId).Nodup)
    {subquery : Subquery} :
    (idToSubquery query).lookup subqueryId = some subquery ↔
      subquery ∈ query.subquery ∧ subquery.subqueryId = subqueryId := by
  unfold idToSubquery
  rw [HashMap.lookup_foldl_assign distinct]
  constructor
  · rintro (⟨item, isItem, sameId, rfl⟩ | ⟨_, nowhere⟩)
    · exact ⟨isItem, sameId⟩
    · cases nowhere
  · rintro ⟨isSubquery, sameId⟩
    exact .inl ⟨subquery, isSubquery, sameId, rfl⟩

/-- How often a handle has another one as a child. -/
def linkCount (handles : HandleMap) (parent child : Text) : Nat :=
  match handles.lookup parent with
  | none => 0
  | some handle => handle.childSubqueryHandles.count child

/-- How often a subquery names a root. -/
def rootCount (query : DelliciusQuery) (parent child : Text) : Nat :=
  match (idToSubquery query).lookup child with
  | none => 0
  | some subquery => subquery.rootSubqueryIds.count parent

lemma count_link (handle : SubqueryHandle) (child : Option Text) (other : Text) :
    (handle.link child).childSubqueryHandles.count other =
      handle.childSubqueryHandles.count other + if child = some other then 1 else 0 := by
  cases child with
  | none => simp [SubqueryHandle.link]
  | some child =>
    simp only [SubqueryHandle.link, SubqueryHandle.addChildSubqueryHandle, count_append,
      count_singleton, Option.some.injEq, beq_iff_eq]

lemma linkCount_assign {handles : HandleMap} {handle : SubqueryHandle}
    (before : ∀ other, linkCount handles subqueryId other =
      handle.childSubqueryHandles.count other) (parent other : Text) :
    linkCount (handles.assign subqueryId (handle.link child)) parent other =
      linkCount handles parent other + if parent = subqueryId ∧ child = some other then 1 else 0 := by
  by_cases same : parent = subqueryId
  · subst same
    rw [before]
    unfold linkCount
    rw [lookup_assign, if_pos (beq_self_eq_true parent)]
    simp only [count_link, true_and]
  · unfold linkCount
    rw [lookup_assign]
    simp [same]

/-- A subquery whose roots are known up to the top, without a cycle. -/
inductive Settled (query : DelliciusQuery) : Text -> Prop where
  | intro (subquery : Subquery) (isSubquery : subquery ∈ query.subquery)
      (parses : Parses subquery)
      (roots : ∀ root ∈ subquery.rootSubqueryIds, Settled query root) :
      Settled query subquery.subqueryId

lemma Settled.known (settled : Settled query subqueryId) :
    subqueryId ∈ query.subquery.map Subquery.subqueryId := by
  cases settled with
  | intro subquery isSubquery parses roots => exact mem_map.mpr ⟨subquery, isSubquery, rfl⟩

variable (distinct : (query.subquery.map Subquery.subqueryId).Nodup)

include distinct

lemma eq_of_subqueryId {first second : Subquery} (isFirst : first ∈ query.subquery)
    (isSecond : second ∈ query.subquery) (same : first.subqueryId = second.subqueryId) :
    first = second :=
  inj_on_of_nodup_map distinct isFirst isSecond same

variable {subqueryId : Text}

section

variable (settled : Settled query subqueryId)

include settled

lemma Settled.root {root : Text}
    (names : NamesRoot query subqueryId root) : Settled query root := by
  cases settled with
  | intro subquery isSubquery parses roots =>
    rcases names with ⟨other, isOther, sameId, isRoot⟩
    rw [eq_of_subqueryId distinct isOther isSubquery sameId] at isRoot
    exact roots root isRoot

lemma Settled.reached {root : Text}
    (reached : Relation.ReflTransGen (NamesRoot query) subqueryId root) : Settled query root := by
  induction reached with
  | refl => exact settled
  | tail _ last ih => exact ih.root distinct last

lemma Settled.not_cycle : ¬ Relation.TransGen (NamesRoot query) subqueryId subqueryId := by
  induction settled with
  | intro subquery isSubquery parses roots ih =>
    intro cycle
    rcases Relation.TransGen.head'_iff.mp cycle with ⟨root, first, back⟩
    have isRoot : root ∈ subquery.rootSubqueryIds := by
      rcases first with ⟨other, isOther, sameId, isRoot⟩
      rw [eq_of_subqueryId distinct isOther isSubquery sameId] at isRoot
      exact isRoot
    exact ih root isRoot (.tail' back first)

lemma Settled.acyclic : ¬ ReachesCycle (NamesRoot query) subqueryId := by
  rintro ⟨node, reached, cycle⟩
  exact (settled.reached distinct reached).not_cycle distinct cycle

end

lemma wellLinked_of_settled (settled : ∀ subquery ∈ query.subquery,
    Settled query subquery.subqueryId) : WellLinked query where
  known subquery isSubquery root isRoot :=
    ((settled subquery isSubquery).root distinct ⟨subquery, isSubquery, rfl, isRoot⟩).known
  acyclic subquery isSubquery := (settled subquery isSubquery).acyclic distinct
  parses subquery isSubquery := by
    generalize sameId : subquery.subqueryId = subqueryId
    have isSettled := sameId ▸ settled subquery isSubquery
    cases isSettled with
    | intro other isOther parses roots =>
      rw [eq_of_subqueryId distinct isSubquery isOther sameId]
      exact parses

end

variable {query : DelliciusQuery}

/-- The handles when the subqueries of the chain are being worked on. -/
structure Consistent (query : DelliciusQuery) (chain : List Text) (handles : HandleMap) : Prop where
  owned : ∀ subqueryId handle, handles.lookup subqueryId = some handle ->
    handle.subquery ∈ query.subquery ∧ handle.subquery.subqueryId = subqueryId
  settled : ∀ subqueryId ∈ handles.keys, subqueryId ∉ chain -> Settled query subqueryId

/-- A call with its chain. -/
structure Ready (query : DelliciusQuery) (subqueryId : Text) (chain : List Text)
    (handles : HandleMap) : Prop where
  named : subqueryId ∈ query.subquery.map Subquery.subqueryId ∨
    ∃ other, NamesRoot query other subqueryId
  leads : ∀ link ∈ chain, Relation.TransGen (NamesRoot query) link subqueryId
  known : ∀ link ∈ chain, link ∈ query.subquery.map Subquery.subqueryId
  consistent : Consistent query chain handles

/-- The links that a subquery has if its handle has been made in between. -/
def newLinks (query : DelliciusQuery) (before after : HandleMap) (parent child : Text) : Nat :=
  if child ∈ after.keys ∧ child ∉ before.keys then rootCount query parent child else 0

/-- What a call leaves behind. -/
structure Built (query : DelliciusQuery) (subqueryId : Text) (chain : List Text)
    (child : Option Text) (before after : HandleMap) : Prop where
  grown : ∀ other ∈ before.keys, other ∈ after.keys
  present : subqueryId ∈ after.keys
  outside : subqueryId ∉ chain
  consistent : Consistent query chain after
  links : ∀ parent other, linkCount after parent other =
    linkCount before parent other + (if parent = subqueryId ∧ child = some other then 1 else 0) +
      newLinks query before after parent other

/-- What holds between the roots of a subquery that is worked on. -/
structure Linking (query : DelliciusQuery) (subqueryId : Text) (chain done : List Text)
    (before state : HandleMap) : Prop where
  grown : ∀ other ∈ before.keys, other ∈ state.keys
  settledRoots : ∀ root ∈ done, Settled query root
  consistent : Consistent query chain state
  links : ∀ parent other, linkCount state parent other =
    linkCount before parent other + (if other = subqueryId then done.count parent else 0) +
      newLinks query before state parent other

lemma newLinks_self (before : HandleMap) (parent child : Text) :
    newLinks query before before parent child = 0 :=
  if_neg fun both => both.2 both.1

lemma newLinks_trans {first second third : HandleMap}
    (grown : ∀ other ∈ first.keys, other ∈ second.keys)
    (grownAfter : ∀ other ∈ second.keys, other ∈ third.keys) (parent child : Text) :
    newLinks query first third parent child =
      newLinks query first second parent child + newLinks query second third parent child := by
  unfold newLinks
  by_cases inFirst : child ∈ first.keys
  · simp [inFirst, grown child inFirst]
  · by_cases inSecond : child ∈ second.keys
    · simp [inFirst, inSecond, grownAfter child inSecond]
    · simp [inFirst, inSecond]

variable {subqueryId : Text} {chain : List Text}

lemma Linking.next {root : Text} {done : List Text} {before state after : HandleMap}
    (linking : Linking query subqueryId chain done before state)
    (built : Built query root chain (some subqueryId) state after) :
    Linking query subqueryId chain (done ++ [root]) before after where
  grown other isOther := built.grown other (linking.grown other isOther)
  settledRoots other isOther := by
    rcases mem_append.mp isOther with isDone | isRoot
    · exact linking.settledRoots other isDone
    · rw [mem_singleton.mp isRoot]
      exact built.consistent.settled root built.present built.outside
  consistent := built.consistent
  links parent other := by
    rw [built.links, linking.links, newLinks_trans linking.grown built.grown]
    by_cases isSelf : other = subqueryId
    · subst isSelf
      by_cases isRoot : parent = root
      · subst isRoot
        simp
        omega
      · simp [isRoot, Ne.symm isRoot]
        omega
    · simp [isSelf, Ne.symm isSelf]
      omega

lemma newSubqueryHandle_spec (subquery : Subquery) :
    match newSubqueryHandle subquery with
    | .error _ => ¬ Parses subquery
    | .ok handle => Parses subquery ∧ handle.subquery = subquery ∧ handle.childSubqueryHandles = [] := by
  unfold newSubqueryHandle Parses
  cases subquery.resource with
  | redpath redpath =>
    cases parsed : redPathToSteps redpath with
    | error status =>
      simp only [parsed]
      intro parses
      rcases parses redpath rfl with ⟨steps, isSteps⟩
      rw [parsed] at isSteps
      cases isSteps
    | ok steps =>
      simp only [parsed]
      refine ⟨?_, rfl, rfl⟩
      intro other same
      cases same
      exact ⟨steps, parsed⟩
  | notSet | uriReferenceRedpath | uri => simp [construct]

variable {larger : List Text} {handles : HandleMap} {handle : SubqueryHandle}

lemma Consistent.assign (consistent : Consistent query chain handles)
    (isSubquery : handle.subquery ∈ query.subquery)
    (sameId : handle.subquery.subqueryId = subqueryId) (contains : ∀ link ∈ chain, link ∈ larger)
    (settled : subqueryId ∉ larger -> Settled query subqueryId) :
    Consistent query larger (handles.assign subqueryId handle) where
  owned other found isFound := by
    rw [lookup_assign] at isFound
    by_cases same : other = subqueryId
    · rw [if_pos (by simpa using same)] at isFound
      cases isFound
      exact ⟨isSubquery, sameId.trans same.symm⟩
    · rw [if_neg (by simpa using same)] at isFound
      exact consistent.owned other found isFound
  settled other isOther outside := by
    rcases mem_keys_assign _ _ _ _ |>.mp isOther with rfl | before
    · exact settled outside
    · exact consistent.settled other before fun inside => outside (contains other inside)

section

variable {subquery : Subquery} (ready : Ready query subquery.subqueryId chain handles)
  (isSubquery : subquery ∈ query.subquery)

include ready isSubquery

lemma Ready.climb {root : Text} {state : HandleMap} (isRoot : root ∈ subquery.rootSubqueryIds)
    (contains : ∀ link, link ∈ larger ↔ link ∈ chain ∨ link = subquery.subqueryId)
    (consistent : Consistent query larger state) : Ready query root larger state := by
  have names : NamesRoot query subquery.subqueryId root := ⟨subquery, isSubquery, rfl, isRoot⟩
  refine ⟨.inr ⟨_, names⟩, ?_, ?_, consistent⟩
  · intro link isLink
    rcases (contains link).mp isLink with before | rfl
    · exact (ready.leads link before).tail names
    · exact .single names
  · intro link isLink
    rcases (contains link).mp isLink with before | rfl
    · exact ready.known link before
    · exact mem_map.mpr ⟨subquery, isSubquery, rfl⟩

lemma Ready.linking (sameSubquery : handle.subquery = subquery) (child : Option Text)
    (contains : ∀ link, link ∈ larger ↔ link ∈ chain ∨ link = subquery.subqueryId) :
    Linking query subquery.subqueryId larger []
      (handles.assign subquery.subqueryId (handle.link child))
      (handles.assign subquery.subqueryId (handle.link child)) := by
  refine ⟨fun _ => id, forall_mem_nil _, ?_, ?_⟩
  · apply ready.consistent.assign
    · rw [subquery_link, sameSubquery]
      exact isSubquery
    · rw [subquery_link, sameSubquery]
    · exact fun link isLink => (contains link).mpr (.inl isLink)
    · exact fun absent => absurd ((contains _).mpr (.inr rfl)) absent
  · intro parent other
    simp [newLinks_self]

end

lemma built_of_found (consistent : Consistent query chain handles)
    (found : handles.lookup subqueryId = some handle) (outside : subqueryId ∉ chain) :
    Built query subqueryId chain child handles (handles.assign subqueryId (handle.link child)) := by
  have isKey : subqueryId ∈ handles.keys := by
    rw [<- HashMap.lookup_isSome, found]
    rfl
  have owned := consistent.owned subqueryId handle found
  have sameKeys : ∀ other ∈ (handles.assign subqueryId (handle.link child)).keys,
      other ∈ handles.keys := by
    intro other isOther
    rcases mem_keys_assign _ _ _ _ |>.mp isOther with rfl | before
    · exact isKey
    · exact before
  constructor
  · exact fun other isOther => mem_keys_assign _ _ _ _ |>.mpr (.inr isOther)
  · exact mem_keys_assign _ _ _ _ |>.mpr (.inl rfl)
  · exact outside
  · apply consistent.assign
    · rw [subquery_link]
      exact owned.1
    · rw [subquery_link]
      exact owned.2
    · exact fun link => id
    · exact fun _ => consistent.settled subqueryId isKey outside
  · intro parent other
    have none : newLinks query handles (handles.assign subqueryId (handle.link child)) parent other =
        0 := if_neg fun both => both.2 (sameKeys other both.1)
    rw [none, Nat.add_zero, linkCount_assign]
    intro anyChild
    unfold linkCount
    rw [found]

variable (distinct : (query.subquery.map Subquery.subqueryId).Nodup)

include distinct

lemma built_of_linking {subquery : Subquery} {chain larger : List Text}
    {handles after : HandleMap} {handle : SubqueryHandle} (isSubquery : subquery ∈ query.subquery)
    (parses : Parses subquery) (childless : handle.childSubqueryHandles = [])
    (missing : handles.lookup subquery.subqueryId = none) (outside : subquery.subqueryId ∉ chain)
    (contains : ∀ link, link ∈ larger ↔ link ∈ chain ∨ link = subquery.subqueryId)
    (linking : Linking query subquery.subqueryId larger subquery.rootSubqueryIds
      (handles.assign subquery.subqueryId (handle.link child)) after) :
    Built query subquery.subqueryId chain child handles after := by
  have settled : Settled query subquery.subqueryId :=
    .intro subquery isSubquery parses linking.settledRoots
  have isNew : subquery.subqueryId ∉ handles.keys := by
    rw [<- HashMap.lookup_isSome, missing]
    exact Bool.false_ne_true
  have present : subquery.subqueryId ∈ after.keys :=
    linking.grown _ (mem_keys_assign _ _ _ _ |>.mpr (.inl rfl))
  constructor
  · exact fun other isOther =>
      linking.grown other (mem_keys_assign _ _ _ _ |>.mpr (.inr isOther))
  · exact present
  · exact outside
  · refine ⟨linking.consistent.owned, ?_⟩
    intro other isOther outside
    by_cases same : other = subquery.subqueryId
    · rw [same]
      exact settled
    · apply linking.consistent.settled other isOther
      rw [contains]
      exact not_or.mpr ⟨outside, same⟩
  · intro parent other
    have childless : ∀ anyChild, linkCount handles subquery.subqueryId anyChild =
        handle.childSubqueryHandles.count anyChild := by
      intro anyChild
      unfold linkCount
      rw [missing, childless]
      rfl
    have roots : rootCount query parent subquery.subqueryId =
        subquery.rootSubqueryIds.count parent := by
      unfold rootCount
      rw [(lookup_idToSubquery distinct).mpr ⟨isSubquery, rfl⟩]
    rw [linking.links, linkCount_assign childless]
    unfold newLinks
    simp only [mem_keys_assign]
    by_cases same : other = subquery.subqueryId
    · subst same
      simp [present, isNew, roots]
    · simp [same]

lemma buildSubqueryHandleChain_ends : ∀ (bound : Nat) (subqueryId : Text)
    (chain : HashSet Text) (child : Option Text) (handles : HandleMap),
    Ready query subqueryId chain.elements handles ->
    query.subquery.length < bound + chain.elements.length ->
    (buildSubqueryHandleChain (idToSubquery query) bound subqueryId chain child handles).Ends
      False (fun _ => ¬ WellLinked query)
      (Built query subqueryId chain.elements child handles) := by
  intro bound
  induction bound with
  | zero =>
    intro subqueryId chain child handles ready enough
    have within := (subperm_of_subset chain.distinct ready.known).length_le
    rw [length_map] at within
    omega
  | succ bound ih =>
    intro subqueryId chain child handles ready enough
    rw [buildSubqueryHandleChain]
    cases found : (idToSubquery query).lookup subqueryId with
    | none =>
      have unknown : subqueryId ∉ query.subquery.map Subquery.subqueryId := by
        intro isId
        rcases mem_map.mp isId with ⟨subquery, isSubquery, sameId⟩
        rw [(lookup_idToSubquery distinct).mpr ⟨isSubquery, sameId⟩] at found
        cases found
      apply Ends.throw
      intro wellLinked
      rcases ready.named with isId | ⟨other, subquery, isSubquery, _, isRoot⟩
      · exact unknown isId
      · exact unknown (wellLinked.known subquery isSubquery subqueryId isRoot)
    | some subquery =>
      rcases (lookup_idToSubquery distinct).mp found with ⟨isSubquery, rfl⟩
      simp only
      by_cases inside : subquery.subqueryId ∈ chain.elements
      · rw [if_pos inside]
        apply Ends.throw
        intro wellLinked
        exact wellLinked.acyclic subquery isSubquery
          ⟨subquery.subqueryId, .refl, ready.leads _ inside⟩
      · rw [if_neg inside]
        cases stored : handles.lookup subquery.subqueryId with
        | some handle =>
          exact Ends.pure (built_of_found ready.consistent stored inside)
        | none =>
          have spec := newSubqueryHandle_spec subquery
          cases made : newSubqueryHandle subquery with
          | error status =>
            rw [made] at spec
            apply Ends.throw
            exact fun wellLinked => spec (wellLinked.parses subquery isSubquery)
          | ok handle =>
            rw [made] at spec
            rcases spec with ⟨parses, sameSubquery, childless⟩
            have larger := HashSet.elements_insert inside
            have contains : ∀ link,
                link ∈ (chain.insert subquery.subqueryId).elements ↔
                  link ∈ chain.elements ∨ link = subquery.subqueryId := by
              intro link
              rw [larger, mem_append, mem_singleton]
            have started := ready.linking isSubquery sameSubquery child contains
            apply Ends.weaken (Ends.foldlM
              (Linking query subquery.subqueryId
                (chain.insert subquery.subqueryId).elements · _ ·) _ started ?_)
              id (fun _ => id)
            · intro after linking
              exact built_of_linking distinct isSubquery parses childless stored inside
                contains linking
            · intro done root later state split linking
              have isRoot : root ∈ subquery.rootSubqueryIds := by
                rw [split]
                exact mem_append_right _ (.head _)
              have enoughRoot : query.subquery.length <
                  bound + (chain.insert subquery.subqueryId).elements.length := by
                rw [larger, length_append, length_singleton]
                omega
              apply Ends.weaken (ih root _ (some subquery.subqueryId) state
                (ready.climb isSubquery isRoot contains linking.consistent) enoughRoot)
                id (fun _ => id)
              exact fun after built => linking.next built

end Ecclesia.StepPlanner
