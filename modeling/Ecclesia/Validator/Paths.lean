import Ecclesia.Validator.Climb

namespace Ecclesia.Validator

open Query List
open Function (update update_idem update_self update_of_ne update_eq_self)
open Bounded (Ends)

/-!
# The paths of a query

Without cycles, the paths of a subquery are the spellings of the chains that lead to
it from a subquery without roots.  The climb generates each of them once, whatever
the order of the subqueries, and it fails exactly when two properties share a path.
-/

variable {query : DelliciusQuery}

/-! ## Chains and their spelling -/

def RootOf (root config : SubqueryConfig query) : Prop :=
  root.subqueryId ∈ config.rootSubqueryIds

/-- Some subquery leads back to itself. -/
def Cyclic (query : DelliciusQuery) : Prop :=
  ∃ id, Relation.TransGen (Links query) id id

variable {config : SubqueryConfig query}

lemma RootOf.links {root : SubqueryConfig query} (isRoot : RootOf root config) :
    Links query root.subqueryId config.subqueryId :=
  ⟨config.subquery, get_mem _ _, rfl, isRoot⟩

lemma acyclic_rootOf (acyclic : ¬ Cyclic query) (config : SubqueryConfig query) :
    ¬ Relation.TransGen RootOf config config := by
  intro cycle
  exact acyclic ⟨config.subqueryId, cycle.lift SubqueryConfig.subqueryId fun _ _ => RootOf.links⟩

lemma FirstRoot.rootOf {root : SubqueryConfig query} (first : FirstRoot root config) :
    RootOf root config := by
  rcases first with ⟨id, rest, others, roots, -, found⟩
  have same : root.subqueryId = id := by
    apply mem_configsWithId.mp
    rw [found]
    exact (.head _)
  rw [RootOf, roots, same]
  exact (.head _)

lemma not_circles_of_acyclic (acyclic : ¬ Cyclic query) : ¬ Circles query := by
  rintro ⟨config, circle⟩
  exact acyclic_rootOf acyclic config (circle.lift id fun _ _ => FirstRoot.rootOf)

def chainsWithin : Nat -> SubqueryConfig query -> List (List Text)
  | 0, _ => []
  | depth + 1, config =>
    if config.rootSubqueryIds.isEmpty then [[config.subqueryId]]
    else config.rootSubqueryIds.flatMap fun root =>
      (configsWithId query root).flatMap fun rootConfig =>
        (chainsWithin depth rootConfig).map (· ++ [config.subqueryId])

/-- The chains that lead to a subquery.  Without cycles, none has more ids than the
query has subqueries. -/
def chainsTo (config : SubqueryConfig query) : List (List Text) :=
  chainsWithin query.subquery.length config

def spell (chain : List Text) : Text :=
  chain.flatMap (text "/" ++ ·)

lemma spell_concat (chain : List Text) (id : Text) :
    spell (chain ++ [id]) = spell chain ++ text "/" ++ id := by
  simp [spell]

def pathsTo (config : SubqueryConfig query) : List Text :=
  (chainsTo config).map spell

section

variable (acyclic : ¬ Cyclic query)

include acyclic

lemma chainsWithin_stable {depth : Nat} (deep : ancestorCount RootOf config < depth) :
    chainsWithin depth config = chainsWithin (depth + 1) config := by
  induction depth generalizing config with
  | zero => exact absurd deep (Nat.not_lt_zero _)
  | succ depth ih =>
    rw [chainsWithin, chainsWithin]
    split
    · rfl
    · apply flatMap_congr
      intro root member
      apply flatMap_congr
      intro rootConfig found
      have isRoot : RootOf rootConfig config := by
        rw [RootOf, mem_configsWithId.mp found]
        exact member
      have fewer := ancestorCount_lt (acyclic_rootOf acyclic) isRoot
      rw [ih (by omega)]

lemma chainsTo_eq (config : SubqueryConfig query) :
    chainsTo config =
      if config.rootSubqueryIds.isEmpty then [[config.subqueryId]]
      else config.rootSubqueryIds.flatMap fun root =>
        (configsWithId query root).flatMap fun rootConfig =>
          (chainsTo rootConfig).map (· ++ [config.subqueryId]) := by
  have few := ancestorCount_lt_card (acyclic_rootOf acyclic) config
  rw [Fintype.card_fin] at few
  rw [chainsTo, chainsWithin_stable acyclic few]
  rfl

def pathsThrough (config rootConfig : SubqueryConfig query) : List Text :=
  (pathsTo rootConfig).map fun path => path ++ text "/" ++ config.subqueryId

lemma pathsTo_eq (config : SubqueryConfig query) :
    pathsTo config =
      if config.rootSubqueryIds.isEmpty then [text "/" ++ config.subqueryId]
      else config.rootSubqueryIds.flatMap fun root =>
        (configsWithId query root).flatMap (pathsThrough config) := by
  rw [pathsTo, chainsTo_eq acyclic]
  split
  · simp [spell]
  · simp only [map_flatMap, map_map]
    apply flatMap_congr
    intro root _
    apply flatMap_congr
    intro rootConfig _
    rw [pathsThrough, pathsTo, map_map]
    apply map_congr_left
    intro chain _
    exact spell_concat chain _

lemma pathsTo_ne_nil (resolvable : ∀ config : SubqueryConfig query, Resolvable config)
    (config : SubqueryConfig query) : pathsTo config ≠ [] := by
  induction counted : ancestorCount RootOf config using Nat.strongRecOn generalizing config with
  | ind count ih =>
    rw [pathsTo_eq acyclic]
    split
    · exact cons_ne_nil _ _
    case isFalse rooted =>
      rcases exists_mem_of_ne_nil _ fun none => rooted (List.isEmpty_iff.mpr none) with
        ⟨root, member⟩
      rcases exists_mem_of_ne_nil _ (resolvable config root member).2 with ⟨rootConfig, found⟩
      have isRoot : RootOf rootConfig config := by
        rw [RootOf, mem_configsWithId.mp found]
        exact member
      have fewer := ancestorCount_lt (acyclic_rootOf acyclic) isRoot
      rcases exists_mem_of_ne_nil _ (ih _ (counted ▸ fewer) rootConfig rfl) with ⟨path, listed⟩
      have through : path ++ text "/" ++ config.subqueryId ∈ pathsThrough config rootConfig :=
        mem_map_of_mem listed
      exact ne_nil_of_mem (mem_flatMap.mpr
        ⟨root, member, mem_flatMap.mpr ⟨rootConfig, found, through⟩⟩)

end

/-! ## What has been filed -/

/-- The paths of the properties of a subquery, under some of its own paths. -/
def propertyPathsOf (config : SubqueryConfig query) (paths : List Text) : List Text :=
  paths.flatMap fun path =>
    config.subquery.properties.map fun property => path ++ text "/" ++ propertyName property

/-- The paths of all properties, under the given paths of their subqueries. -/
def filedPaths (paths : SubqueryConfig query -> List Text) : List Text :=
  (List.finRange query.subquery.length).flatMap fun config =>
    propertyPathsOf config (paths config)

def propertyPaths (query : DelliciusQuery) : List Text :=
  filedPaths fun config : SubqueryConfig query => pathsTo config

/-- Two properties of the query have the same path. -/
def Duplicated (query : DelliciusQuery) : Prop :=
  ¬ (propertyPaths query).Nodup

lemma filedPaths_update (paths : SubqueryConfig query -> List Text)
    (config : SubqueryConfig query) (path : Text) :
    (filedPaths (update paths config (paths config ++ [path]))).Perm
      (filedPaths paths ++ propertyPathsOf config [path]) := by
  rcases append_of_mem (mem_finRange config) with ⟨before, after, split⟩
  have once : (before ++ config :: after).Nodup := split ▸ nodup_finRange _
  have unchanged : ∀ others : List (SubqueryConfig query), config ∉ others ->
      (others.flatMap fun other => propertyPathsOf other
        (update paths config (paths config ++ [path]) other)) =
      others.flatMap fun other => propertyPathsOf other (paths other) := by
    intro others absent
    apply flatMap_congr
    intro other member
    have differs : other ≠ config := fun same => absent (same ▸ member)
    rw [update_of_ne differs]
  rcases nodup_append'.mp once with ⟨-, onceAfter, apart⟩
  have notBefore : config ∉ before := fun member => apart member (.head _)
  have notAfter : config ∉ after := (nodup_cons.mp onceAfter).1
  have grown : propertyPathsOf config (paths config ++ [path]) =
      propertyPathsOf config (paths config) ++ propertyPathsOf config [path] :=
    flatMap_append
  unfold filedPaths
  rw [split, flatMap_append, flatMap_append, flatMap_cons, flatMap_cons,
    unchanged before notBefore, unchanged after notAfter, update_self, grown]
  simp only [append_assoc]
  apply List.Perm.append_left
  apply List.Perm.append_left
  exact perm_append_comm

lemma filedPaths_sublist {paths more : SubqueryConfig query -> List Text}
    (fewer : ∀ config, paths config <+: more config) :
    (filedPaths paths).Sublist (filedPaths more) := by
  have general : ∀ configs : List (SubqueryConfig query),
      (configs.flatMap fun config => propertyPathsOf config (paths config)).Sublist
        (configs.flatMap fun config => propertyPathsOf config (more config)) := by
    intro configs
    induction configs with
    | nil => exact Sublist.refl _
    | cons config rest ih =>
      rw [flatMap_cons, flatMap_cons]
      apply Sublist.append _ ih
      rcases fewer config with ⟨later, same⟩
      rw [<- same, propertyPathsOf, propertyPathsOf, flatMap_append]
      exact sublist_append_left _ _
  exact general _

/-- The table holds the properties of the paths so far, which are paths of the query. -/
structure Filed (state : ConfigState query) : Prop where
  once : (state.propertyNameToConfigMap.map Prod.fst).Nodup
  keys : (state.propertyNameToConfigMap.map Prod.fst).Perm (filedPaths state.paths)
  known : ∀ config, state.paths config <+: pathsTo config

variable {state : ConfigState query}

lemma populatePropertyMap_files {path : Text} (filed : Filed state)
    (next : state.paths config ++ [path] <+: pathsTo config) {spent : Prop} :
    (populatePropertyMap path config state).Ends spent (fun _ => Duplicated query) fun after =>
      Filed after ∧ after.paths = update state.paths config (state.paths config ++ [path]) := by
  have known : ∀ other, update state.paths config (state.paths config ++ [path])
      other <+: pathsTo other := by
    intro other
    by_cases isConfig : other = config
    · subst isConfig
      rw [update_self]
      exact next
    · rw [update_of_ne isConfig]
      exact filed.known other
  have single : propertyPathsOf config [path] = config.subquery.properties.map fun property =>
      path ++ text "/" ++ propertyName property := by
    simp [propertyPathsOf]
  have moved := filedPaths_update state.paths config path
  have inserted : (config.subquery.properties.foldlM (insertProperty path)
      state.propertyNameToConfigMap).Ends spent (fun _ => Duplicated query) fun map =>
        (map.map Prod.fst).Nodup ∧ (map.map Prod.fst).Perm (filedPaths state.paths ++
          config.subquery.properties.map fun property =>
            path ++ text "/" ++ propertyName property) := by
    apply Ends.foldlM (fun done (map : List (Text × RedfishProperty)) =>
      (map.map Prod.fst).Nodup ∧ (map.map Prod.fst).Perm (filedPaths state.paths ++
        done.map fun property => path ++ text "/" ++ propertyName property))
    · refine ⟨filed.once, ?_⟩
      rw [map_nil, append_nil]
      exact filed.keys
    · rintro done property later map split ⟨once, keys⟩
      simp only [insertProperty]
      split
      case isTrue present =>
        apply Ends.throw
        intro distinct
        have all := (distinct.sublist (filedPaths_sublist known))
        rw [moved.nodup_iff, single, split, map_append, <- append_assoc] at all
        have listed := lookup_isSome_iff.mp present
        exact disjoint_of_nodup_append all (keys.subset listed) (.head _)
      case isFalse absent =>
        apply Ends.pure
        refine ⟨nodup_cons.mpr ⟨fun listed => absent (lookup_isSome_iff.mpr listed), once⟩, ?_⟩
        rw [map_append, <- append_assoc]
        exact (keys.cons _).trans (perm_append_singleton _ _).symm
  apply Ends.bind inserted
  rintro map ⟨once, keys⟩
  apply Ends.pure
  refine ⟨⟨once, ?_, known⟩, rfl⟩
  rw [<- single] at keys
  exact keys.trans moved.symm

lemma populateFromRoot_files (filed : Filed state) {rootPaths : List Text}
    (next : state.paths config ++ (rootPaths.map fun path =>
      path ++ text "/" ++ config.subqueryId) <+: pathsTo config) {spent : Prop} :
    (rootPaths.foldlM (fun state rootPath => populatePropertyMap
        (rootPath ++ text "/" ++ config.subqueryId) config state) state).Ends spent
      (fun _ => Duplicated query) fun after => Filed after ∧
        after.paths = update state.paths config (state.paths config ++
          rootPaths.map fun path => path ++ text "/" ++ config.subqueryId) := by
  apply Ends.foldlM (fun done (after : ConfigState query) => Filed after ∧
    after.paths = update state.paths config (state.paths config ++
      done.map fun path => path ++ text "/" ++ config.subqueryId))
  · refine ⟨filed, ?_⟩
    rw [map_nil, append_nil, update_eq_self]
  · rintro done rootPath later between split ⟨filedBetween, paths⟩
    have following : between.paths config ++ [rootPath ++ text "/" ++ config.subqueryId] <+:
        pathsTo config := by
      apply IsPrefix.trans _ next
      rw [paths, update_self, split, map_append, append_assoc,
        prefix_append_right_inj, prefix_append_right_inj]
      exact cons_prefix_cons.mpr ⟨rfl, nil_prefix⟩
    apply Ends.weaken (populatePropertyMap_files filedBetween following) id (fun _ => id)
    rintro after ⟨filedAfter, same⟩
    refine ⟨filedAfter, ?_⟩
    rw [same, paths, update_self, update_idem, map_append, append_assoc]
    rfl

/-! ## The climb without cycles -/

def Tidy (config : SubqueryConfig query) (state : ConfigState query) : Prop :=
  ∀ other, Relation.ReflTransGen RootOf other config ->
    state.paths other = [] ∨ state.paths other = pathsTo other

/-- Only subqueries above the given one have changed, and these have all of their
paths. -/
def Above (config : SubqueryConfig query) (before after : ConfigState query) : Prop :=
  ∀ other, other ≠ config -> after.paths other = before.paths other ∨
    (Relation.ReflTransGen RootOf other config ∧ after.paths other = pathsTo other)

/-- The climb of a subquery has given it all of its paths. -/
structure Completed (config : SubqueryConfig query) (before after : ConfigState query) :
    Prop where
  filed : Filed after
  complete : after.paths config = pathsTo config
  above : Above config before after

/-- The work on a subquery has given it some of its paths. -/
structure Working (config : SubqueryConfig query) (paths : List Text)
    (before state : ConfigState query) : Prop where
  filed : Filed state
  partly : state.paths config = paths
  above : Above config before state

variable {traverse : SubqueryConfig query -> ConfigState query -> Bounded Status (ConfigState query)}

variable {rootConfig : SubqueryConfig query}

lemma ensurePaths_completes
    (filed : Filed state) (tidy : Tidy rootConfig state) (some : pathsTo rootConfig ≠ [])
    (completes : (traverse rootConfig state).Ends True (fun _ => Duplicated query)
      (Completed rootConfig state)) :
    (ensurePaths traverse rootConfig state).Ends True (fun _ => Duplicated query)
      (Completed rootConfig state) := by
  unfold ensurePaths
  by_cases none : state.paths rootConfig = []
  · rw [if_pos (List.isEmpty_iff.mpr none)]
    apply Ends.bind completes
    intro after completed
    split
    case isTrue empty =>
      rw [List.isEmpty_iff, completed.complete] at empty
      exact absurd empty some
    case isFalse => exact .pure completed
  · rw [if_neg fun empty => none (List.isEmpty_iff.mp empty)]
    have complete := (tidy rootConfig .refl).resolve_left none
    exact .pure ⟨filed, complete, fun other _ => .inl rfl⟩

variable {paths : List Text} {before : ConfigState query}

lemma Working.tidy (acyclic : ¬ Cyclic query) (working : Working config paths before state)
    (tidy : Tidy config before) (isRoot : RootOf rootConfig config) : Tidy rootConfig state := by
  intro other reached
  have differs : other ≠ config := by
    rintro rfl
    exact acyclic_rootOf acyclic other (.tail' reached isRoot)
  rcases working.above other differs with same | ⟨-, complete⟩
  · rw [same]
    exact tidy other (reached.tail isRoot)
  · exact .inr complete

lemma visitRootConfig_completes (acyclic : ¬ Cyclic query) (working : Working config paths before state)
    (tidy : Tidy config before) (isRoot : RootOf rootConfig config)
    (some : pathsTo rootConfig ≠ [])
    (next : paths ++ pathsThrough config rootConfig <+: pathsTo config)
    (completes : (traverse rootConfig state).Ends True (fun _ => Duplicated query)
      (Completed rootConfig state)) :
    (visitRootConfig traverse config state rootConfig).Ends True (fun _ => Duplicated query)
      (Working config (paths ++ pathsThrough config rootConfig) before) := by
  have differs : config ≠ rootConfig := by
    rintro rfl
    exact acyclic_rootOf acyclic config (.single isRoot)
  apply Ends.bind (ensurePaths_completes working.filed
    (working.tidy acyclic tidy isRoot) some completes)
  intro ready completed
  -- The subquery itself is not above its root.
  have kept : ready.paths config = paths := by
    rcases completed.above config differs with same | ⟨reached, -⟩
    · rw [same, working.partly]
    · exact absurd (.tail' reached isRoot) (acyclic_rootOf acyclic config)
  have following : ready.paths config ++ ((ready.paths rootConfig).map fun path =>
      path ++ text "/" ++ config.subqueryId) <+: pathsTo config := by
    rw [kept, completed.complete]
    exact next
  apply Ends.weaken (populateFromRoot_files completed.filed following) id (fun _ => id)
  rintro after ⟨filed, same⟩
  refine ⟨filed, ?_, ?_⟩
  · rw [same, update_self, kept, completed.complete]
    rfl
  · intro other notConfig
    rw [same, update_of_ne notConfig]
    by_cases isRootConfig : other = rootConfig
    · subst isRootConfig
      exact .inr ⟨.single isRoot, completed.complete⟩
    · rcases completed.above other isRootConfig with unchanged | ⟨reached, complete⟩
      · rw [unchanged]
        exact working.above other notConfig
      · exact .inr ⟨reached.tail isRoot, complete⟩

section

variable (acyclic : ¬ Cyclic query)
  (resolvable : ∀ config : SubqueryConfig query, Resolvable config)

include acyclic resolvable

variable {config : SubqueryConfig query}

lemma visitRoot_completes {state : ConfigState query} (working : Working config paths before state)
    (tidy : Tidy config before) {root : Text} (member : root ∈ config.rootSubqueryIds)
    (next : paths ++ (configsWithId query root).flatMap (pathsThrough config) <+: pathsTo config)
    (completes : ∀ rootConfig current, Filed current -> Tidy rootConfig current ->
      (traverse rootConfig current).Ends True (fun _ => Duplicated query)
        (Completed rootConfig current)) :
    (visitRoot traverse config state root).Ends True (fun _ => Duplicated query)
      (Working config (paths ++ (configsWithId query root).flatMap (pathsThrough config))
        before) := by
  rcases resolvable config root member with ⟨differs, found⟩
  rw [visitRoot, if_neg differs, if_neg fun none => found (List.isEmpty_iff.mp none)]
  apply Ends.foldlM (fun done current =>
    Working config (paths ++ done.flatMap (pathsThrough config)) before current)
  · rw [flatMap_nil, append_nil]
    exact working
  · intro done rootConfig later current split holds
    have listed : rootConfig ∈ configsWithId query root := by
      rw [split]
      exact mem_append_right _ (.head _)
    have isRoot : RootOf rootConfig config := by
      rw [RootOf, mem_configsWithId.mp listed]
      exact member
    have following : paths ++ done.flatMap (pathsThrough config) ++
        pathsThrough config rootConfig <+: pathsTo config := by
      apply IsPrefix.trans _ next
      rw [split, flatMap_append, append_assoc]
      apply (prefix_append_right_inj _).mpr
      apply (prefix_append_right_inj _).mpr
      exact prefix_append _ _
    have visited := visitRootConfig_completes acyclic holds tidy isRoot
      (pathsTo_ne_nil acyclic resolvable rootConfig) following
      (completes rootConfig current holds.filed (holds.tidy acyclic tidy isRoot))
    rw [flatMap_append, flatMap_singleton, <- append_assoc]
    exact visited

/-- A climb gives a subquery its paths, or meets two properties with the same path. -/
lemma traverseQueryConfig_completes {bound : Nat} {state : ConfigState query}
    (filed : Filed state) (tidy : Tidy config state) :
    (traverseQueryConfig bound config state).Ends True (fun _ => Duplicated query)
      (Completed config state) := by
  induction bound generalizing config state with
  | zero => exact Ends.exhausted trivial
  | succ bound ih =>
    rw [traverseQueryConfig]
    rcases tidy config .refl with none | complete
    · rw [if_neg (by simp [none])]
      split
      case isTrue rootless =>
        have single : pathsTo config = [text "/" ++ config.subqueryId] := by
          rw [pathsTo_eq acyclic, if_pos rootless]
        have next : state.paths config ++ [text "/" ++ config.subqueryId] <+:
            pathsTo config := by
          rw [none, single]
          exact prefix_refl _
        apply Ends.weaken (populatePropertyMap_files filed next) id (fun _ => id)
        rintro after ⟨filedAfter, same⟩
        refine ⟨filedAfter, ?_, ?_⟩
        · rw [same, update_self, none, single]
          rfl
        · intro other differs
          rw [same, update_of_ne differs]
          exact .inl rfl
      case isFalse rooted =>
        have all : pathsTo config = config.rootSubqueryIds.flatMap fun root =>
            (configsWithId query root).flatMap (pathsThrough config) := by
          rw [pathsTo_eq acyclic, if_neg rooted]
        have looped : (config.rootSubqueryIds.foldlM
            (visitRoot (traverseQueryConfig bound) config) state).Ends True
            (fun _ => Duplicated query) fun after => Working config
              (config.rootSubqueryIds.flatMap fun root =>
                (configsWithId query root).flatMap (pathsThrough config)) state after := by
          apply Ends.foldlM (fun done current => Working config
            (done.flatMap fun root => (configsWithId query root).flatMap (pathsThrough config))
            state current)
          · exact ⟨filed, none, fun other _ => .inl rfl⟩
          · intro done root later current split holds
            have member : root ∈ config.rootSubqueryIds := by
              rw [split]
              exact mem_append_right _ (.head _)
            rw [flatMap_append, flatMap_singleton]
            apply visitRoot_completes acyclic resolvable holds tidy member
            · rw [all, split, flatMap_append]
              apply (prefix_append_right_inj _).mpr
              exact prefix_append _ _
            · exact fun rootConfig current filed tidy => ih filed tidy
        apply Ends.weaken looped id (fun _ => id)
        intro after working
        refine ⟨working.filed, ?_, working.above⟩
        rw [working.partly, all]
    · have some := pathsTo_ne_nil acyclic resolvable config
      rw [if_pos (by simp [complete, some])]
      exact Ends.pure ⟨filed, complete, fun other _ => .inl rfl⟩

lemma buildQueryConfigMap_completes (order : IterationOrder Text) (bound : Nat) :
    (buildQueryConfigMap order bound query).Ends True (fun _ => Duplicated query) fun map =>
      (map.map Prod.fst).Nodup ∧ (map.map Prod.fst).Perm (propertyPaths query) := by
  rw [buildQueryConfigMap_eq]
  have looped : ((visits order query).foldlM
      (fun state config => traverseQueryConfig bound config state) (.start query)).Ends True
      (fun _ => Duplicated query) fun state => Filed state ∧
        (∀ config, state.paths config = [] ∨ state.paths config = pathsTo config) ∧
          ∀ config ∈ visits order query, state.paths config = pathsTo config := by
    apply Ends.foldlM (fun done (state : ConfigState query) => Filed state ∧
      (∀ config, state.paths config = [] ∨ state.paths config = pathsTo config) ∧
        ∀ config ∈ done, state.paths config = pathsTo config)
    · refine ⟨⟨nodup_nil, ?_, fun config => nil_prefix⟩, fun _ => .inl rfl, nofun⟩
      have none : filedPaths (ConfigState.start query).paths = [] :=
        flatMap_eq_nil_iff.mpr fun config _ => rfl
      rw [none]
      exact .nil
    · rintro done config later state - ⟨filed, tidy, complete⟩
      apply Ends.weaken (traverseQueryConfig_completes acyclic resolvable filed
        fun other _ => tidy other) id (fun _ => id)
      intro after completed
      have everywhere : ∀ other, after.paths other = state.paths other ∨
          after.paths other = pathsTo other := by
        intro other
        by_cases isConfig : other = config
        · subst isConfig
          exact .inr completed.complete
        · exact (completed.above other isConfig).imp id And.right
      refine ⟨completed.filed, ?_, ?_⟩
      · intro other
        rcases everywhere other with same | finished
        · rw [same]
          exact tidy other
        · exact .inr finished
      · intro other member
        rcases mem_append.mp member with before | last
        · rcases everywhere other with same | finished
          · rw [same]
            exact complete other before
          · exact finished
        · rw [mem_singleton.mp last]
          exact completed.complete
  apply Ends.bind looped
  rintro state ⟨filed, -, complete⟩
  apply Ends.pure
  have same : state.paths = pathsTo := by
    funext config
    exact complete config (mem_visits order config)
  have keys := filed.keys
  rw [same] at keys
  exact ⟨filed.once, keys⟩

end

/-! ## What a validator refuses -/

/-- A subquery names a root that is not there. -/
def UnknownRoot (query : DelliciusQuery) : Prop :=
  ∃ (config : SubqueryConfig query) (root : Text),
    root ∈ config.rootSubqueryIds ∧ configsWithId query root = []

/-- A subquery names itself as its root. -/
def SelfRoot (query : DelliciusQuery) : Prop :=
  ∃ config : SubqueryConfig query, config.subqueryId ∈ config.rootSubqueryIds

/-- The queries that a validator should refuse: there is a cycle, an unknown root, or a
path of two properties. -/
def Faulty (query : DelliciusQuery) : Prop :=
  Cyclic query ∨ UnknownRoot query ∨ Duplicated query

/-- The creation of a validator ends in every order, and fails exactly at a faulty query. -/
def RefusesFaulty (query : DelliciusQuery) : Prop :=
  ∀ order : IterationOrder Text, ∃ bound, ∀ more, bound <= more ->
    ∃ outcome, ExceptT.run (create order more (some query)) = some outcome ∧
      ((∃ status, outcome = .error status) ↔ Faulty query)

lemma resolvable_of_known (known : ¬ UnknownRoot query) (notSelf : ¬ SelfRoot query)
    (config : SubqueryConfig query) : Resolvable config := by
  intro root member
  refine ⟨?_, ?_⟩
  · rintro rfl
    exact notSelf ⟨config, member⟩
  · intro none
    exact known ⟨config, root, member, none⟩

lemma SelfRoot.cyclic (self : SelfRoot query) : Cyclic query := by
  rcases self with ⟨config, member⟩
  have isRoot : RootOf config config := member
  exact ⟨config.subqueryId, .single isRoot.links⟩

lemma not_resolvable (defect : UnknownRoot query ∨ SelfRoot query) :
    ¬ ∀ config : SubqueryConfig query, Resolvable config := by
  intro resolvable
  rcases defect with ⟨config, root, member, none⟩ | ⟨config, member⟩
  · exact (resolvable config root member).2 none
  · exact (resolvable config _ member).1 rfl

/-- How the configuration of a query without cycles ends, or one that an unknown root or a subquery
that names itself spoils. -/
lemma buildQueryConfigMap_refuses (order : IterationOrder Text) {bound : Nat}
    (enough : (query.subquery.length + 1) ^ 2 <= bound)
    (detected : ¬ Cyclic query ∨ ¬ Circles query ∧ (UnknownRoot query ∨ SelfRoot query)) :
    (buildQueryConfigMap order bound query).Ends False (fun _ => Faulty query)
      fun _ => ¬ Faulty query := by
  have straight : ¬ Circles query := detected.elim not_circles_of_acyclic And.left
  have climbs := buildQueryConfigMap_climbs straight order enough
  by_cases spoiled : UnknownRoot query ∨ SelfRoot query
  · apply Ends.weaken climbs id
    · intro _ _
      rcases spoiled with unknown | self
      · exact .inr (.inl unknown)
      · exact .inl self.cyclic
    · exact fun _ resolvable => absurd resolvable (not_resolvable spoiled)
  · rcases not_or.mp spoiled with ⟨known, notSelf⟩
    have acyclic : ¬ Cyclic query := detected.elim id fun spoilt => absurd spoilt.2 spoiled
    have completes := buildQueryConfigMap_completes acyclic (resolvable_of_known known notSelf)
      order bound
    apply Ends.weaken (climbs.and completes) And.left
    · exact fun _ failed => .inr (.inr failed.2)
    · rintro map ⟨-, once, keys⟩ (cyclic | unknown | duplicated)
      · exact acyclic cyclic
      · exact known unknown
      · exact duplicated (keys.nodup_iff.mp once)

lemma not_cyclic_of_rank (rank : Text -> Nat) (rises : ∀ subquery ∈ query.subquery,
      ∀ root ∈ subquery.rootSubqueryIds, rank root < rank subquery.subqueryId) :
    ¬ Cyclic query := by
  rintro ⟨id, cycle⟩
  have falls : ∀ {parent child}, Relation.TransGen (Links query) parent child ->
      rank parent < rank child := by
    intro parent child reached
    induction reached with
    | single link =>
      rcases link with ⟨subquery, member, rfl, root⟩
      exact rises subquery member _ root
    | tail _ link ih =>
      rcases link with ⟨subquery, member, rfl, root⟩
      exact ih.trans (rises subquery member _ root)
  exact Nat.lt_irrefl _ (falls cycle)

/-- Two subqueries that are rooted in each other. -/
def mutualQuery : DelliciusQuery :=
  linkedQuery [(text "SQ1", []), (text "SQ2", [text "SQ3"]), (text "SQ3", [text "SQ2"])]

end Ecclesia.Validator
