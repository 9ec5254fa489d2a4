import Ecclesia.Validator.Paths

namespace Ecclesia.Validator

open Query List

/-!
# The validator and the planner

The planner joins the subqueries of a query from the roots down, the validator builds
its paths from the subqueries up.  When ids are distinct and all roots can be
resolved, both follow the same chains.
-/

variable {query : DelliciusQuery}

/-- A chain from a subquery without roots to a subquery. -/
structure LeadsTo (query : DelliciusQuery) (chain : List Text) (id : Text) : Prop where
  starts : ∃ root, chain.head? = some root ∧ IsRoot query root
  linked : chain.IsChain (Links query)
  ends : chain.getLast? = some id

/-- The ids, the roots of a subquery and the names of its properties are distinct, roots can be
resolved, and there is no cycle. -/
structure WellFormed (query : DelliciusQuery) : Prop where
  distinct : (query.subquery.map Subquery.subqueryId).Nodup
  known : ¬ UnknownRoot query
  acyclic : ¬ Cyclic query
  roots : ∀ subquery ∈ query.subquery, subquery.rootSubqueryIds.Nodup
  names : ∀ subquery ∈ query.subquery, (subquery.properties.map propertyName).Nodup

lemma exists_config {subquery : Subquery} (member : subquery ∈ query.subquery) :
    ∃ config : SubqueryConfig query, config.subquery = subquery :=
  mem_iff_get.mp member

lemma mem_query (config : SubqueryConfig query) : config.subquery ∈ query.subquery := get_mem _ _

variable {chain : List Text}

namespace WellFormed

variable (wellFormed : WellFormed query)

include wellFormed

lemma eq_of_subqueryId {first second : SubqueryConfig query}
    (same : first.subqueryId = second.subqueryId) : first = second := by
  have once : query.subquery.Nodup := wellFormed.distinct.of_map
  apply nodup_iff_injective_get.mp once
  exact inj_on_of_nodup_map wellFormed.distinct (mem_query first) (mem_query second) same

lemma resolvable (config : SubqueryConfig query) : Resolvable config := by
  apply resolvable_of_known wellFormed.known
  exact fun self => wellFormed.acyclic self.cyclic

variable {config : SubqueryConfig query}

lemma isRoot_iff : IsRoot query config.subqueryId ↔ config.rootSubqueryIds = [] := by
  constructor
  · rintro ⟨subquery, member, same, rootless⟩
    rcases exists_config member with ⟨other, rfl⟩
    rw [wellFormed.eq_of_subqueryId same] at rootless
    exact rootless
  · exact fun rootless => ⟨config.subquery, mem_query config, rfl, rootless⟩

lemma links_iff {parent : Text} :
    Links query parent config.subqueryId ↔ parent ∈ config.rootSubqueryIds := by
  constructor
  · rintro ⟨subquery, member, same, linked⟩
    rcases exists_config member with ⟨other, rfl⟩
    rw [wellFormed.eq_of_subqueryId same] at linked
    exact linked
  · exact fun linked => ⟨config.subquery, mem_query config, rfl, linked⟩

lemma leadsTo_concat :
    LeadsTo query (chain ++ [config.subqueryId]) config.subqueryId ↔
      (chain = [] ∧ config.rootSubqueryIds = []) ∨
        ∃ rootConfig, RootOf rootConfig config ∧ LeadsTo query chain rootConfig.subqueryId := by
  constructor
  · rintro ⟨⟨root, head, isRoot⟩, linked, -⟩
    rcases eq_nil_or_concat chain with rfl | ⟨front, last, same⟩
    · cases head
      exact .inl ⟨rfl, wellFormed.isRoot_iff.mp isRoot⟩
    · subst same
      rcases isChain_append.mp linked with ⟨linkedFront, -, joined⟩
      have link := joined last (by simp) config.subqueryId (by simp)
      have member := wellFormed.links_iff.mp link
      rcases exists_mem_of_ne_nil _ (wellFormed.resolvable config last member).2 with
        ⟨rootConfig, found⟩
      have same := mem_configsWithId.mp found
      refine .inr ⟨rootConfig, ?_, ⟨root, ?_, isRoot⟩, linkedFront, ?_⟩
      · rw [RootOf, same]
        exact member
      · rw [head?_append_of_ne_nil _ (by simp)] at head
        exact head
      · rw [same]
        simp
  · rintro (⟨rfl, rootless⟩ | ⟨rootConfig, isRoot, ⟨root, head, starts⟩, linked, ends⟩)
    · exact ⟨⟨_, rfl, wellFormed.isRoot_iff.mpr rootless⟩, isChain_singleton _, rfl⟩
    · refine ⟨⟨root, ?_, starts⟩, ?_, by simp⟩
      · cases chain with
        | nil => cases head
        | cons first rest => exact head
      · apply isChain_append.mpr
        refine ⟨linked, isChain_singleton _, ?_⟩
        intro last isLast child isChild
        rw [ends] at isLast
        cases isLast
        cases isChild
        exact isRoot.links

lemma mem_chainsTo : chain ∈ chainsTo config ↔ LeadsTo query chain config.subqueryId := by
  induction counted : ancestorCount RootOf config using Nat.strongRecOn
    generalizing chain config with
  | ind count ih =>
    have above : ∀ {rootConfig : SubqueryConfig query} {front : List Text},
        RootOf rootConfig config ->
          (front ∈ chainsTo rootConfig ↔ LeadsTo query front rootConfig.subqueryId) := by
      intro rootConfig front isRoot
      have fewer := ancestorCount_lt (acyclic_rootOf wellFormed.acyclic) isRoot
      exact ih _ (counted ▸ fewer) rfl
    rw [chainsTo_eq wellFormed.acyclic]
    rcases eq_nil_or_concat chain with rfl | ⟨front, last, same⟩
    · constructor
      · intro member
        split at member
        · simp at member
        · simp at member
      · rintro ⟨-, -, ends⟩
        cases ends
    · rw [concat_eq_append] at same
      subst same
      constructor
      · intro member
        split at member
        case isTrue rootless =>
          have single : front ++ [last] = [] ++ [config.subqueryId] := mem_singleton.mp member
          rcases append_inj' single rfl with ⟨alone, isLast⟩
          cases isLast
          exact wellFormed.leadsTo_concat.mpr (.inl ⟨alone, List.isEmpty_iff.mp rootless⟩)
        case isFalse =>
          rcases mem_flatMap.mp member with ⟨root, named, member⟩
          rcases mem_flatMap.mp member with ⟨rootConfig, found, member⟩
          rcases mem_map.mp member with ⟨way, leads, same⟩
          rcases append_inj' same rfl with ⟨rfl, isLast⟩
          cases isLast
          have isRoot : RootOf rootConfig config := by
            rw [RootOf, mem_configsWithId.mp found]
            exact named
          exact wellFormed.leadsTo_concat.mpr (.inr ⟨rootConfig, isRoot, (above isRoot).mp leads⟩)
      · intro leads
        have isLast := leads.ends
        rw [getLast?_concat] at isLast
        cases isLast
        rcases wellFormed.leadsTo_concat.mp leads with ⟨rfl, rootless⟩ | ⟨rootConfig, isRoot, way⟩
        · rw [if_pos (List.isEmpty_iff.mpr rootless)]
          exact mem_singleton.mpr rfl
        · rw [if_neg fun none => ne_nil_of_mem isRoot (List.isEmpty_iff.mp none)]
          apply mem_flatMap.mpr
          refine ⟨rootConfig.subqueryId, isRoot, mem_flatMap.mpr ⟨rootConfig, ?_, ?_⟩⟩
          · exact mem_configsWithId.mpr rfl
          · exact mem_map_of_mem ((above isRoot).mpr way)

lemma nodup_chainsTo (config : SubqueryConfig query) : (chainsTo config).Nodup := by
  induction counted : ancestorCount RootOf config using Nat.strongRecOn generalizing config with
  | ind count ih =>
    rw [chainsTo_eq wellFormed.acyclic]
    split
    · exact nodup_singleton _
    · -- The chains through a root end in the root, so those of two roots differ.
      have lastOf : ∀ {rootConfig : SubqueryConfig query} {chain : List Text},
          chain ∈ (chainsTo rootConfig).map (· ++ [config.subqueryId]) ->
            ∃ front, chain = front ++ [config.subqueryId] ∧
              front.getLast? = some rootConfig.subqueryId := by
        intro rootConfig chain member
        rcases mem_map.mp member with ⟨front, leads, rfl⟩
        exact ⟨front, rfl, (wellFormed.mem_chainsTo.mp leads).ends⟩
      have apart : ∀ {first second : SubqueryConfig query} {chain : List Text},
          chain ∈ (chainsTo first).map (· ++ [config.subqueryId]) ->
            chain ∈ (chainsTo second).map (· ++ [config.subqueryId]) -> first = second := by
        intro first second chain one other
        rcases lastOf one with ⟨front, rfl, endsFirst⟩
        rcases lastOf other with ⟨way, same, endsSecond⟩
        rcases append_inj' same rfl with ⟨rfl, -⟩
        rw [endsFirst] at endsSecond
        exact wellFormed.eq_of_subqueryId (Option.some.inj endsSecond)
      apply nodup_flatMap.mpr
      refine ⟨?_, ?_⟩
      · intro root named
        apply nodup_flatMap.mpr
        refine ⟨?_, ?_⟩
        · intro rootConfig found
          have isRoot : RootOf rootConfig config := by
            rw [RootOf, mem_configsWithId.mp found]
            exact named
          have fewer := ancestorCount_lt (acyclic_rootOf wellFormed.acyclic) isRoot
          apply (ih _ (counted ▸ fewer) rootConfig rfl).map
          exact fun one other same => append_cancel_right same
        · have once : (configsWithId query root).Nodup := (nodup_finRange _).filter _
          exact once.imp fun differs chain one other => differs (apart one other)
      · apply (wellFormed.roots _ (mem_query config)).imp
        intro first second differs chain one other
        rcases mem_flatMap.mp one with ⟨rootFirst, foundFirst, inFirst⟩
        rcases mem_flatMap.mp other with ⟨rootSecond, foundSecond, inSecond⟩
        have same := apart inFirst inSecond
        subst same
        exact differs ((mem_configsWithId.mp foundFirst).symm.trans
          (mem_configsWithId.mp foundSecond))

end WellFormed

/-- The properties of a query, each as the chain of its subquery followed by its name. -/
def labels (query : DelliciusQuery) : List (List Text) :=
  (List.finRange query.subquery.length).flatMap fun config : SubqueryConfig query =>
    (chainsTo config).flatMap fun chain =>
      config.subquery.properties.map fun property => chain ++ [propertyName property]

lemma propertyPaths_eq (query : DelliciusQuery) :
    propertyPaths query = (labels query).map spell := by
  unfold propertyPaths filedPaths labels
  rw [map_flatMap]
  apply flatMap_congr
  intro config _
  simp only [propertyPathsOf, pathsTo, flatMap_map, map_flatMap]
  apply flatMap_congr
  intro chain _
  rw [map_map]
  apply map_congr_left
  intro property _
  exact (spell_concat chain _).symm

variable {label : List Text}

namespace WellFormed

variable (wellFormed : WellFormed query)

include wellFormed

lemma mem_labels :
    label ∈ labels query ↔ ∃ chain subquery property, subquery ∈ query.subquery ∧
      LeadsTo query chain subquery.subqueryId ∧ property ∈ subquery.properties ∧
        label = chain ++ [propertyName property] := by
  constructor
  · intro member
    rcases mem_flatMap.mp member with ⟨config, -, member⟩
    rcases mem_flatMap.mp member with ⟨chain, leads, member⟩
    rcases mem_map.mp member with ⟨property, listed, rfl⟩
    exact ⟨chain, config.subquery, property, mem_query config,
      wellFormed.mem_chainsTo.mp leads, listed, rfl⟩
  · rintro ⟨chain, subquery, property, member, leads, listed, rfl⟩
    rcases exists_config member with ⟨config, rfl⟩
    apply mem_flatMap.mpr
    refine ⟨config, mem_finRange config, mem_flatMap.mpr ⟨chain, ?_, ?_⟩⟩
    · exact wellFormed.mem_chainsTo.mpr leads
    · exact mem_map_of_mem listed

lemma nodup_labels : (labels query).Nodup := by
  apply nodup_flatMap.mpr
  refine ⟨?_, ?_⟩
  · intro config _
    apply nodup_flatMap.mpr
    refine ⟨?_, ?_⟩
    · intro chain _
      have names := wellFormed.names _ (mem_query config)
      have same : (config.subquery.properties.map fun property => chain ++ [propertyName property]) =
          (config.subquery.properties.map propertyName).map (chain ++ [·]) := by
        rw [map_map]
        rfl
      rw [same]
      apply names.map
      intro one other equal
      exact singleton_injective (append_cancel_left equal)
    · apply (wellFormed.nodup_chainsTo config).imp
      intro one other differs label inOne inOther
      rcases mem_map.mp inOne with ⟨first, -, rfl⟩
      rcases mem_map.mp inOther with ⟨second, -, same⟩
      exact differs (append_inj' same rfl).1.symm
  · apply (nodup_finRange _).imp
    intro one other differs label inOne inOther
    rcases mem_flatMap.mp inOne with ⟨chain, leads, inOne⟩
    rcases mem_flatMap.mp inOther with ⟨another, leadsToo, inOther⟩
    rcases mem_map.mp inOne with ⟨first, -, rfl⟩
    rcases mem_map.mp inOther with ⟨second, -, same⟩
    rcases append_inj' same rfl with ⟨rfl, -⟩
    have ends := (wellFormed.mem_chainsTo.mp leads).ends
    rw [(wellFormed.mem_chainsTo.mp leadsToo).ends] at ends
    exact differs (wellFormed.eq_of_subqueryId (Option.some.inj ends)).symm

end WellFormed

/-- A name without slashes ends where the next slash stands. -/
lemma slashless_append_inj {first second rest after : Text} (one : '/' ∉ first)
    (other : '/' ∉ second) (restStarts : rest = [] ∨ ∃ more, rest = '/' :: more)
    (afterStarts : after = [] ∨ ∃ more, after = '/' :: more)
    (same : first ++ rest = second ++ after) : first = second ∧ rest = after := by
  have taken : ∀ {name tail : Text}, '/' ∉ name ->
      (tail = [] ∨ ∃ more, tail = '/' :: more) -> (name ++ tail).takeWhile (· != '/') = name := by
    intro name tail absent starts
    have all : ∀ c ∈ name, (c != '/') = true := by
      intro c member
      exact bne_iff_ne.mpr fun isSlash => absent (isSlash ▸ member)
    rw [takeWhile_append_of_pos all]
    rcases starts with rfl | ⟨more, rfl⟩
    · simp
    · simp
  have names : first = second := by
    rw [<- taken one restStarts, same, taken other afterStarts]
  subst names
  exact ⟨rfl, append_cancel_left same⟩

lemma spell_starts (chain : List Text) : spell chain = [] ∨ ∃ more, spell chain = '/' :: more := by
  cases chain with
  | nil => exact .inl rfl
  | cons id rest => exact .inr ⟨id ++ spell rest, rfl⟩

/-- The spelling of a chain determines it, if no part of it contains a slash. -/
lemma spell_inj {first second : List Text} (one : ∀ id ∈ first, '/' ∉ id)
    (other : ∀ id ∈ second, '/' ∉ id) (same : spell first = spell second) : first = second := by
  induction first generalizing second with
  | nil =>
    cases second with
    | nil => rfl
    | cons id rest => cases same
  | cons id rest ih =>
    cases second with
    | nil => cases same
    | cons name later =>
      have tails : id ++ spell rest = name ++ spell later := tail_eq_of_cons_eq same
      rcases slashless_append_inj (one id (.head _)) (other name (.head _))
        (spell_starts rest) (spell_starts later) tails with ⟨rfl, remaining⟩
      rw [ih (fun id member => one id (.tail _ member))
        (fun id member => other id (.tail _ member)) remaining]

/-- A property of the last subquery of a prefix of a joined chain. -/
def OfPrefix (query : DelliciusQuery) (chains : List (List Text)) (label : List Text) : Prop :=
  ∃ chain start subquery property, chain ∈ chains ∧ start <+: chain ∧
    subquery ∈ query.subquery ∧ start.getLast? = some subquery.subqueryId ∧
      property ∈ subquery.properties ∧ label = start ++ [propertyName property]

/-- No two properties have paths that are spelled alike. -/
def Unambiguous (query : DelliciusQuery) (chains : List (List Text)) : Prop :=
  ∀ first second, OfPrefix query chains first -> OfPrefix query chains second ->
    spell first = spell second -> first = second

/-- No subquery id and no property name contains a slash. -/
def Slashless (query : DelliciusQuery) : Prop :=
  ∀ subquery ∈ query.subquery, '/' ∉ subquery.subqueryId ∧
    ∀ property ∈ subquery.properties, '/' ∉ propertyName property

lemma LeadsTo.known {last id : Text} (leads : LeadsTo query chain last) (inside : id ∈ chain) :
    ∃ subquery ∈ query.subquery, subquery.subqueryId = id := by
  rcases leads.starts with ⟨root, head, subquery, member, same, -⟩
  cases chain with
  | nil => cases head
  | cons first way =>
    cases head
    rcases (reflTransGen_of_isChain leads.linked inside).cases_tail with isRoot | ⟨_, -, link⟩
    · exact ⟨subquery, member, same.trans isRoot.symm⟩
    · rcases link with ⟨child, known, isChild, -⟩
      exact ⟨child, known, isChild⟩

lemma leadsTo_iff_prefix (acyclic : ¬ Cyclic query) {start : List Text} {id : Text} :
    LeadsTo query start id ↔
      ∃ chain, IsMaximalChain query chain ∧ start <+: chain ∧ start.getLast? = some id := by
  constructor
  · rintro ⟨⟨root, head, isRoot⟩, linked, ends⟩
    cases start with
    | nil => cases head
    | cons first way =>
      cases head
      have straight : ¬ ReachesCycle (Links query) root := by
        rintro ⟨node, -, cycle⟩
        exact acyclic ⟨node, cycle⟩
      rcases exists_isMaximalChain_append isRoot straight linked with ⟨later, maximal⟩
      exact ⟨_, maximal, prefix_append _ _, ends⟩
  · rintro ⟨chain, maximal, ⟨later, rfl⟩, ends⟩
    refine ⟨?_, maximal.linked.left_of_append, ends⟩
    rcases maximal.starts with ⟨root, head, isRoot⟩
    cases start with
    | nil => cases ends
    | cons first way => exact ⟨root, head, isRoot⟩

namespace WellFormed

variable (wellFormed : WellFormed query)

include wellFormed

lemma ofPrefix_iff {order : IterationOrder Text} {bound : Nat} {status : Status}
    {chains : List (List Text)} (joined : joinSubqueries order bound query = some (status, chains))
    (joins : Joins query status chains) : OfPrefix query chains label ↔ label ∈ labels query := by
  rw [wellFormed.mem_labels]
  cases fine : status.isOk with
  | true =>
    simp only [OfPrefix, joins.mem_iff fine, leadsTo_iff_prefix wellFormed.acyclic]
    grind
  | false =>
    have rootless : ∀ id, ¬ IsRoot query id := by
      rcases joins.fails_iff.mp fine with rootless | ⟨root, -, node, -, cycle⟩
      · exact rootless
      · exact absurd ⟨node, cycle⟩ wellFormed.acyclic
    rw [joinSubqueries_rootless rootless] at joined
    cases joined
    constructor
    · rintro ⟨chain, -, -, -, member, -⟩
      exact nomatch member
    · rintro ⟨chain, -, -, -, ⟨⟨root, -, isRoot⟩, -, -⟩, -⟩
      exact absurd isRoot (rootless root)

lemma slashless_label (slashless : Slashless query)
    (member : label ∈ labels query) : ∀ part ∈ label, '/' ∉ part := by
  rcases wellFormed.mem_labels.mp member with ⟨chain, subquery, property, known, leads, listed, rfl⟩
  intro part inside
  rcases mem_append.mp inside with inChain | isName
  · rcases leads.known inChain with ⟨other, member, rfl⟩
    exact (slashless other member).1
  · rw [mem_singleton.mp isName]
    exact (slashless subquery known).2 property listed

end WellFormed

/-- For every query with distinct ids, roots and property names, with resolved roots and without
cycles: the configuration of the validator succeeds exactly when no two properties have paths that
are spelled alike, which holds if no id and no name contains a slash. Its keys are then the
properties of the prefixes of the joined chains. -/
theorem buildQueryConfigMap_agrees (wellFormed : WellFormed query)
    (order joinOrder : IterationOrder Text) {bound joinBound : Nat}
    (enough : (query.subquery.length + 1) ^ 2 <= bound)
    (enoughToJoin : (buildParentChildSubqueryMap query).length < joinBound) :
    ∃ status chains outcome,
      joinSubqueries joinOrder joinBound query = some (status, chains) ∧
      ExceptT.run (buildQueryConfigMap order bound query) = some outcome ∧
      ((∃ map, outcome = .ok map) ↔ Unambiguous query chains) ∧
      (Slashless query -> Unambiguous query chains) ∧
      ∀ map, outcome = .ok map -> ∀ key,
        key ∈ map.map Prod.fst ↔ ∃ label, OfPrefix query chains label ∧ key = spell label := by
  rcases joinSubqueries_joins query joinOrder enoughToJoin with ⟨status, chains, joined, joins⟩
  have climbs := buildQueryConfigMap_climbs (not_circles_of_acyclic wellFormed.acyclic) order enough
  have completes := buildQueryConfigMap_completes wellFormed.acyclic wellFormed.resolvable order bound
  have distinctIff : (propertyPaths query).Nodup ↔ Unambiguous query chains := by
    rw [propertyPaths_eq, List.nodup_map_iff_inj_on wellFormed.nodup_labels]
    simp only [Unambiguous, wellFormed.ofPrefix_iff joined joins]
    exact ⟨fun distinct first second one other => distinct first one second other,
      fun distinct first one second other => distinct first second one other⟩
  have slashless : Slashless query -> Unambiguous query chains := by
    intro slashless first second one other same
    rw [wellFormed.ofPrefix_iff joined joins] at one other
    exact spell_inj (wellFormed.slashless_label slashless one)
      (wellFormed.slashless_label slashless other) same
  have ends := climbs.and completes
  unfold Bounded.Ends at ends
  cases ended : ExceptT.run (buildQueryConfigMap order bound query) with
  | none =>
    rw [ended] at ends
    exact ends.1.elim
  | some outcome =>
    rw [ended] at ends
    refine ⟨status, chains, outcome, joined, rfl, ?_, slashless, ?_⟩
    · rw [<- distinctIff]
      cases outcome with
      | error failed => exact ⟨nofun, fun distinct => absurd distinct ends.2⟩
      | ok map => exact ⟨fun _ => ends.2.2.nodup_iff.mp ends.2.1, fun _ => ⟨map, rfl⟩⟩
    · rintro map rfl key
      rw [ends.2.2.mem_iff, propertyPaths_eq, List.mem_map]
      simp only [wellFormed.ofPrefix_iff joined joins]
      constructor
      · rintro ⟨label, member, rfl⟩
        exact ⟨label, member, rfl⟩
      · rintro ⟨label, member, rfl⟩
        exact ⟨label, member, rfl⟩

/-- A query given by the ids of its subqueries, their roots, and the names of their
properties. -/
def namedQuery (subqueries : List (Text × List Text × List Text)) : DelliciusQuery :=
  ⟨text "query", subqueries.map fun entry => ⟨entry.1, entry.2.1,
    entry.2.2.map fun name => ⟨name, [], [], .string, .primitive, false⟩, [], none, .notSet,
    .unspecified, none⟩, none⟩

def fanQuery : DelliciusQuery :=
  namedQuery [(text "chassis", [], [text "Name"]),
    (text "fans", [text "chassis"], [text "Name", text "Reading"])]

theorem buildQueryConfigMap_agrees_fanQuery :
    ∃ chains map,
      joinSubqueries (.listed Text) 2 fanQuery = some (.okStatus, chains) ∧
      ExceptT.run (buildQueryConfigMap (.reversed Text) 9 fanQuery) = some (.ok map) ∧
      ∀ key, key ∈ map.map Prod.fst ↔
        ∃ label, OfPrefix fanQuery chains label ∧ key = spell label := by
  have wellFormed : WellFormed fanQuery := by
    refine ⟨by decide, ?_, ?_, by decide, by decide⟩
    · rintro ⟨config, root, member, none⟩
      revert root config
      decide
    · apply not_cyclic_of_rank fun id => if id = text "chassis" then 0 else 1
      decide
  have slashless : Slashless fanQuery := by
    unfold Slashless
    decide
  rcases buildQueryConfigMap_agrees wellFormed (.reversed Text) (.listed Text)
      (by decide : (fanQuery.subquery.length + 1) ^ 2 <= 9)
      (by decide : (buildParentChildSubqueryMap fanQuery).length < 2) with
    ⟨status, chains, outcome, joined, ended, succeeds, unambiguous, keys⟩
  rcases succeeds.mpr (unambiguous slashless) with ⟨map, rfl⟩
  have evaluated : ∃ listed,
      joinSubqueries (.listed Text) 2 fanQuery = some (.okStatus, listed) := ⟨_, rfl⟩
  rcases evaluated with ⟨listed, evaluated⟩
  rw [joined] at evaluated
  cases evaluated
  exact ⟨chains, map, joined, ended, keys map rfl⟩

/-- The id of one subquery is spelled like the chain of two others. -/
def slashQuery : DelliciusQuery :=
  namedQuery [(text "a", [], [text "p"]), (text "b", [text "a"], [text "p"]),
    (text "a/b", [], [text "p"])]

theorem buildQueryConfigMap_refuses_slashQuery :
    WellFormed slashQuery ∧
    ExceptT.run (buildQueryConfigMap (.listed Text) 16 slashQuery) =
      some (.error (.internal (text "Duplicate path: /a/b"))) := by
  refine ⟨⟨by decide, ?_, ?_, by decide, by decide⟩, rfl⟩
  · rintro ⟨config, root, member, none⟩
    revert root config
    decide
  · apply not_cyclic_of_rank fun id => if id = text "b" then 1 else 0
    decide

end Ecclesia.Validator
