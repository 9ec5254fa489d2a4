import Ecclesia.Validator.Config

namespace Ecclesia.Validator

open Query List
open Function (update update_self update_idem update_of_ne update_eq_self)
open Bounded (Ends)

/-!
# The climb to the roots

The recursion enters a subquery only as long as it has no paths.  A subquery that is
being worked on has none before its first root is done, and has some from then on.
So the recursion enters a subquery again only along first roots, and it ends if
first roots do not lead around a cycle.
-/

variable {query : DelliciusQuery}

variable {config : SubqueryConfig query}

lemma mem_configsWithId {id : Text} : config ∈ configsWithId query id ↔ config.subqueryId = id := by
  simp [configsWithId]

/-- All roots of a subquery are there, and it is not one of them. -/
def Resolvable (config : SubqueryConfig query) : Prop :=
  ∀ root ∈ config.rootSubqueryIds, root ≠ config.subqueryId ∧ configsWithId query root ≠ []

/-- The subquery that the recursion enters first: the first one with the first root
id. -/
def FirstRoot (root config : SubqueryConfig query) : Prop :=
  ∃ id rest others, config.rootSubqueryIds = id :: rest ∧ id ≠ config.subqueryId ∧
    configsWithId query id = root :: others

/-- First roots lead around a cycle. -/
def Circles (query : DelliciusQuery) : Prop :=
  ∃ config : SubqueryConfig query, Relation.TransGen FirstRoot config config

/-- Paths are only added. -/
def Extends (before after : ConfigState query) : Prop :=
  ∀ config, before.paths config <+: after.paths config

lemma Extends.refl (state : ConfigState query) : Extends state state := fun _ => prefix_refl _

lemma Extends.trans {first second third : ConfigState query} (one : Extends first second)
    (other : Extends second third) : Extends first third :=
  fun config => (one config).trans (other config)

variable {before after : ConfigState query}

lemma Extends.ne_nil (grown : Extends before after) (some : before.paths config ≠ []) :
    after.paths config ≠ [] := by
  intro none
  have shorter := grown config
  rw [none] at shorter
  exact some (prefix_nil.mp shorter)

/-- What `populate_property_map` returns has one more path for the subquery. -/
lemma populatePropertyMap_paths (path : Text) (config : SubqueryConfig query)
    (state : ConfigState query) {spent : Prop} :
    (populatePropertyMap path config state).Ends spent (fun _ => True) fun after =>
      after.paths = update state.paths config (state.paths config ++ [path]) := by
  have inserted : (config.subquery.properties.foldlM (insertProperty path)
      state.propertyNameToConfigMap).Ends spent (fun _ => True) fun _ => True := by
    apply Ends.foldlM (fun _ _ => True) _ trivial
    intro done property later map _ _
    simp only [insertProperty]
    split
    · exact .throw trivial
    · exact Ends.pure trivial
  apply Ends.bind inserted
  intro map _
  exact Ends.pure rfl

lemma populateFromRoot_paths (rootPaths : List Text) (config : SubqueryConfig query)
    (state : ConfigState query) {spent : Prop} :
    (rootPaths.foldlM (fun state rootPath => populatePropertyMap
        (rootPath ++ text "/" ++ config.subqueryId) config state) state).Ends spent
      (fun _ => True) fun after =>
        after.paths = update state.paths config (state.paths config ++
          rootPaths.map fun rootPath => rootPath ++ text "/" ++ config.subqueryId) := by
  apply Ends.foldlM (fun done (after : ConfigState query) =>
    after.paths = update state.paths config (state.paths config ++
      done.map fun rootPath => rootPath ++ text "/" ++ config.subqueryId))
  · rw [map_nil, append_nil, update_eq_self]
  · intro done rootPath later between _ paths
    apply Ends.weaken (populatePropertyMap_paths _ _ _) id (fun _ => id)
    intro after same
    rw [same, paths, update_self, update_idem, map_append, append_assoc]
    rfl

lemma extends_update {more : List Text}
    (same : after.paths = update before.paths config (before.paths config ++ more)) :
    Extends before after := by
  intro other
  rw [same]
  by_cases isConfig : other = config
  · subst isConfig
    rw [update_self]
    exact prefix_append _ _
  · rw [update_of_ne isConfig]

open Classical in
/-- How many subqueries have no paths yet. -/
noncomputable def pathless (state : ConfigState query) : Nat :=
  (Finset.univ.filter fun config => state.paths config = []).card

lemma pathless_le (state : ConfigState query) : pathless state <= query.subquery.length := by
  apply (Finset.card_le_univ _).trans
  rw [Fintype.card_fin]

lemma pathless_mono (grown : Extends before after) : pathless after <= pathless before := by
  apply Finset.card_le_card
  intro config none
  rw [Finset.mem_filter] at none ⊢
  exact ⟨none.1, by_contra fun some => grown.ne_nil some none.2⟩

lemma pathless_lt (grown : Extends before after) (none : before.paths config = [])
    (some : after.paths config ≠ []) : pathless after < pathless before := by
  apply Finset.card_lt_card
  rw [Finset.ssubset_iff_of_subset]
  · exact ⟨config, Finset.mem_filter.mpr ⟨Finset.mem_univ _, none⟩,
      fun member => some (Finset.mem_filter.mp member).2⟩
  · intro other empty
    rw [Finset.mem_filter] at empty ⊢
    exact ⟨empty.1, by_contra fun filled => grown.ne_nil filled empty.2⟩

/-- A bound on the depth of the recursion from a subquery. -/
noncomputable def climbCost (state : ConfigState query) (config : SubqueryConfig query) : Nat :=
  pathless state * (query.subquery.length + 1) + ancestorCount FirstRoot config

lemma ancestorCount_le_length (config : SubqueryConfig query) :
    ancestorCount FirstRoot config <= query.subquery.length := by
  apply (ancestorCount_le_card config).trans
  rw [Fintype.card_fin]

lemma climbCost_lt_of_filled (grown : Extends before after) (none : before.paths config = [])
    (some : after.paths config ≠ []) (root : SubqueryConfig query) :
    climbCost after root < climbCost before config := by
  have fewer := Nat.mul_le_mul_right (query.subquery.length + 1) (pathless_lt grown none some)
  have low := ancestorCount_le_length root
  rw [Nat.succ_mul] at fewer
  unfold climbCost
  omega

lemma climbCost_lt_of_first (straight : ¬ Circles query)
    (grown : Extends before after) {root : SubqueryConfig query}
    (first : FirstRoot root config) : climbCost after root < climbCost before config := by
  have fewer := Nat.mul_le_mul_right (query.subquery.length + 1) (pathless_mono grown)
  have lower := ancestorCount_lt (fun node circle => straight ⟨node, circle⟩) first
  unfold climbCost
  omega

lemma climbCost_lt_square (state : ConfigState query) (config : SubqueryConfig query) :
    climbCost state config < (query.subquery.length + 1) ^ 2 := by
  have few := Nat.mul_le_mul_right (query.subquery.length + 1) (pathless_le state)
  have low := ancestorCount_le_length config
  have square : (query.subquery.length + 1) ^ 2 =
      query.subquery.length * (query.subquery.length + 1) + (query.subquery.length + 1) := by
    rw [Nat.pow_two, Nat.succ_mul]
  unfold climbCost
  omega

/-- What a completed climb leaves behind. -/
structure Climbed (config : SubqueryConfig query) (before after : ConfigState query) : Prop where
  grown : Extends before after
  filled : after.paths config ≠ []
  resolvable : ∀ other, after.paths other ≠ [] -> before.paths other ≠ [] ∨ Resolvable other

/-- What holds while a subquery is worked on. -/
structure Climbing (config : SubqueryConfig query) (someDone : Prop)
    (before state : ConfigState query) : Prop where
  grown : Extends before state
  started : someDone -> state.paths config ≠ []
  resolvable : ∀ other, other ≠ config -> state.paths other ≠ [] ->
    before.paths other ≠ [] ∨ Resolvable other

variable {state : ConfigState query}

lemma Climbing.weaken {some fewer : Prop} (climbing : Climbing config some before state)
    (less : fewer -> some) : Climbing config fewer before state :=
  ⟨climbing.grown, fun done => climbing.started (less done), climbing.resolvable⟩

variable {traverse : SubqueryConfig query -> ConfigState query -> Bounded Status (ConfigState query)}

variable {rootConfig : SubqueryConfig query}

lemma ensurePaths_climbs (climbs : state.paths rootConfig = [] ->
      (traverse rootConfig state).Ends False (fun _ => True) (Climbed rootConfig state)) :
    (ensurePaths traverse rootConfig state).Ends False (fun _ => True)
      (Climbed rootConfig state) := by
  unfold ensurePaths
  by_cases none : state.paths rootConfig = []
  · rw [if_pos (List.isEmpty_iff.mpr none)]
    apply Ends.bind (climbs none)
    intro after climbed
    split
    · exact Ends.throw trivial
    · exact .pure climbed
  · rw [if_neg fun empty => none (List.isEmpty_iff.mp empty)]
    exact .pure ⟨.refl state, none, fun other some => .inl some⟩

lemma visitRootConfig_climbs {someDone : Prop} (climbing : Climbing config someDone before state)
    (climbs : (traverse rootConfig state).Ends False (fun _ => True) (Climbed rootConfig state)) :
    (visitRootConfig traverse config state rootConfig).Ends False (fun _ => True)
      (Climbing config True before) := by
  apply Ends.bind (ensurePaths_climbs fun _ => climbs)
  intro ready climbed
  apply Ends.weaken (populateFromRoot_paths _ _ _) id (fun _ => id)
  intro after same
  refine ⟨(climbing.grown.trans climbed.grown).trans (extends_update same), ?_, ?_⟩
  · intro _ none
    rw [same, update_self, append_eq_nil_iff] at none
    exact climbed.filled (map_eq_nil_iff.mp none.2)
  · intro other differs some
    rw [same, update_of_ne differs] at some
    rcases climbed.resolvable other some with known | fine
    · exact climbing.resolvable other differs known
    · exact .inr fine

lemma visitRoot_climbs {someDone : Prop} {rootSubquery : Text}
    (climbing : Climbing config someDone before state)
    (climbs : ∀ current rootConfig done later,
      configsWithId query rootSubquery = done ++ rootConfig :: later ->
      rootSubquery ≠ config.subqueryId ->
      Climbing config (someDone ∨ done ≠ []) before current ->
        (traverse rootConfig current).Ends False (fun _ => True) (Climbed rootConfig current)) :
    (visitRoot traverse config state rootSubquery).Ends False (fun _ => True) fun after =>
      Climbing config True before after ∧ rootSubquery ≠ config.subqueryId ∧
        configsWithId query rootSubquery ≠ [] := by
  unfold visitRoot
  split
  case isTrue same => exact .throw trivial
  case isFalse differs =>
    split
    case isTrue none => exact .throw trivial
    case isFalse some =>
      have known : configsWithId query rootSubquery ≠ [] :=
        fun none => some (List.isEmpty_iff.mpr none)
      have looped : ((configsWithId query rootSubquery).foldlM (visitRootConfig traverse config)
          state).Ends False (fun _ => True) fun after => Climbing config
            (someDone ∨ configsWithId query rootSubquery ≠ []) before after := by
        apply Ends.foldlM
          (fun done current => Climbing config (someDone ∨ done ≠ []) before current)
        · exact climbing.weaken fun done => done.resolve_right (absurd rfl)
        · intro done rootConfig later current split holds
          apply Ends.weaken
            (visitRootConfig_climbs holds (climbs current rootConfig done later split differs holds))
            id (fun _ => id)
          exact fun after climbed => climbed.weaken fun _ => trivial
      apply Ends.weaken looped id (fun _ => id)
      exact fun after climbed => ⟨climbed.weaken fun _ => .inr known, differs, known⟩

/-- The recursion ends if first roots do not lead around a cycle, and the cost is an
upper bound for its depth. -/
lemma traverseQueryConfig_climbs (straight : ¬ Circles query) {bound : Nat}
    (enough : climbCost state config < bound) :
    (traverseQueryConfig bound config state).Ends False (fun _ => True) (Climbed config state) := by
  induction bound generalizing config state with
  | zero => exact absurd enough (Nat.not_lt_zero _)
  | succ bound ih =>
    rw [traverseQueryConfig]
    by_cases none : state.paths config = []
    · rw [if_neg (by simp [none])]
      split
      case isTrue rootless =>
        apply Ends.weaken (populatePropertyMap_paths _ _ _) id (fun _ => id)
        intro after same
        refine ⟨extends_update same, ?_, ?_⟩
        · rw [same, update_self]
          exact append_ne_nil_of_right_ne_nil _ (cons_ne_nil _ _)
        · intro other some
          by_cases isConfig : other = config
          · subst isConfig
            apply Or.inr
            intro root member
            rw [List.isEmpty_iff.mp rootless] at member
            exact nomatch member
          · rw [same, update_of_ne isConfig] at some
            exact .inl some
      case isFalse rooted =>
        have looped : (config.rootSubqueryIds.foldlM
            (visitRoot (traverseQueryConfig bound) config) state).Ends False (fun _ => True)
            fun after => Climbing config (config.rootSubqueryIds ≠ []) state after ∧
              ∀ root ∈ config.rootSubqueryIds,
                root ≠ config.subqueryId ∧ configsWithId query root ≠ [] := by
          apply Ends.foldlM (fun done current =>
            Climbing config (done ≠ []) state current ∧ ∀ root ∈ done,
              root ≠ config.subqueryId ∧ configsWithId query root ≠ [])
          · exact ⟨⟨.refl state, absurd rfl, fun other _ some => .inl some⟩, nofun⟩
          · intro done rootSubquery later current split holds
            apply Ends.weaken (visitRoot_climbs holds.1 _) id (fun _ => id)
            · intro after climbed
              refine ⟨climbed.1.weaken fun _ => trivial, ?_⟩
              intro root member
              rcases mem_append.mp member with before | last
              · exact holds.2 root before
              · rw [mem_singleton.mp last]
                exact climbed.2
            · intro between rootConfig inner rest splitInner differs climbing
              apply ih
              -- Only the first root is entered before the subquery has a path.
              have falls : climbCost between rootConfig < climbCost state config := by
                by_cases begun : done ≠ [] ∨ inner ≠ []
                · exact climbCost_lt_of_filled climbing.grown none (climbing.started begun) _
                · rw [not_or, not_not, not_not] at begun
                  rw [begun.1] at split
                  rw [begun.2] at splitInner
                  exact climbCost_lt_of_first straight climbing.grown
                    ⟨rootSubquery, later, rest, split, differs, splitInner⟩
              omega
        apply Ends.weaken looped id (fun _ => id)
        rintro after ⟨climbed, resolved⟩
        have some : config.rootSubqueryIds ≠ [] := fun none => rooted (List.isEmpty_iff.mpr none)
        refine ⟨climbed.grown, climbed.started some, ?_⟩
        intro other filled
        by_cases isConfig : other = config
        · subst isConfig
          exact .inr resolved
        · exact climbed.resolvable other isConfig filled
    · rw [if_pos (by simp [none])]
      exact .pure ⟨.refl state, none, fun other some => .inl some⟩

def visits (order : IterationOrder Text) (query : DelliciusQuery) :
    List (SubqueryConfig query) :=
  (order.iterate (configIds query)).flatMap (configsWithId query)

lemma mem_visits (order : IterationOrder Text) (config : SubqueryConfig query) :
    config ∈ visits order query := by
  apply mem_flatMap.mpr
  refine ⟨config.subqueryId, ?_, mem_configsWithId.mpr rfl⟩
  rw [order.mem_iterate, configIds, mem_dedup]
  exact mem_map_of_mem (get_mem _ _)

/-- The two loops of `BuildQueryConfigMap` are one loop over the subqueries. -/
lemma buildQueryConfigMap_eq (order : IterationOrder Text) (bound : Nat) (query : DelliciusQuery) :
    buildQueryConfigMap order bound query = (do
      let state <- (visits order query).foldlM
        (fun state config => traverseQueryConfig bound config state) (.start query)
      pure state.propertyNameToConfigMap) := by
  have flat : ∀ (ids : List Text) (state : ConfigState query),
      ids.foldlM (traverseConfigsWithId bound query) state =
        (ids.flatMap (configsWithId query)).foldlM
          (fun state config => traverseQueryConfig bound config state) state := by
    intro ids
    induction ids with
    | nil => exact fun _ => rfl
    | cons id rest ih =>
      intro state
      rw [foldlM_cons, flatMap_cons, foldlM_append]
      simp only [ih]
      rfl
  rw [buildQueryConfigMap, flat]
  rfl

lemma buildQueryConfigMap_climbs (straight : ¬ Circles query) (order : IterationOrder Text)
    {bound : Nat} (enough : (query.subquery.length + 1) ^ 2 <= bound) :
    (buildQueryConfigMap order bound query).Ends False (fun _ => True) fun _ =>
      ∀ config : SubqueryConfig query, Resolvable config := by
  rw [buildQueryConfigMap_eq]
  have looped : ((visits order query).foldlM
      (fun state config => traverseQueryConfig bound config state) (.start query)).Ends False
      (fun _ => True) fun state =>
        (∀ config, state.paths config ≠ [] -> Resolvable config) ∧
          ∀ config ∈ visits order query, state.paths config ≠ [] := by
    apply Ends.foldlM (fun done (state : ConfigState query) =>
      (∀ config, state.paths config ≠ [] -> Resolvable config) ∧
        ∀ config ∈ done, state.paths config ≠ [])
    · exact ⟨fun config some => absurd rfl some, nofun⟩
    · rintro done config later state - ⟨resolved, filled⟩
      have affordable := (climbCost_lt_square state config).trans_le enough
      apply Ends.weaken (traverseQueryConfig_climbs straight affordable) id (fun _ => id)
      intro after climbed
      refine ⟨?_, ?_⟩
      · intro other some
        exact (climbed.resolvable other some).elim (resolved other) id
      · intro other member
        rcases mem_append.mp member with before | last
        · exact climbed.grown.ne_nil (filled other before)
        · rw [mem_singleton.mp last]
          exact climbed.filled
  apply Ends.bind looped
  intro state ended
  exact Ends.pure fun config => ended.1 config (ended.2 config (mem_visits order config))

/-- Around a cycle of first roots the recursion goes on for ever. -/
lemma traverseQueryConfig_circles (circle : Relation.TransGen FirstRoot config config)
    (bound : Nat) :
    traverseQueryConfig bound config (.start query) = .exhausted := by
  induction bound generalizing config with
  | zero => rfl
  | succ bound ih =>
    rcases Relation.TransGen.tail'_iff.mp circle with ⟨root, reached, first⟩
    have again := ih (.head' first reached)
    rcases first with ⟨id, rest, others, roots, differs, found⟩
    have pathless : ((ConfigState.start query).paths config).isEmpty = true := rfl
    have pathlessRoot : ((ConfigState.start query).paths root).isEmpty = true := rfl
    rw [traverseQueryConfig, roots, foldlM_cons, visitRoot, if_neg differs, found,
      foldlM_cons, visitRootConfig, ensurePaths, again]
    rfl

lemma buildQueryConfigMap_circles (circle : Relation.TransGen FirstRoot config config)
    (bound : Nat) :
    buildQueryConfigMap (.startingWith config.subqueryId) bound query = .exhausted := by
  have first : ∃ later, visits (.startingWith config.subqueryId) query = config :: later := by
    rcases Relation.TransGen.head'_iff.mp circle with ⟨child, ⟨id, -, others, -, -, found⟩, -⟩
    have same : config.subqueryId = id := by
      apply mem_configsWithId.mp
      rw [found]
      exact (.head _)
    have listed : config.subqueryId ∈ configIds query := by
      rw [configIds, mem_dedup]
      exact mem_map_of_mem (get_mem _ _)
    rw [visits, IterationOrder.startingWith]
    simp only [if_pos listed, flatMap_cons]
    rw [same, found]
    exact ⟨_, rfl⟩
  rcases first with ⟨later, first⟩
  rw [buildQueryConfigMap_eq, first, foldlM_cons, traverseQueryConfig_circles circle]
  rfl

end Ecclesia.Validator
