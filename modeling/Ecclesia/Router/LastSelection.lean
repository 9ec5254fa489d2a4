import Ecclesia.Router.SelectionEffects

namespace Ecclesia.Router

open List Option

/-!
# The last selection of a query

The entry of a query is written field by field.  A selection that matches replaces the query,
but a rule or a timeout only if it has one.  So an entry is what the last selection makes of
it alone only if no earlier one has left something behind.
-/

section

variable {Query Rule Duration : Type} (resources : Resources Query Rule Duration)

variable (queryId : Text) (before : List (QuerySelectionSpec Query Rule))
  (selectionSpec : QuerySelectionSpec Query Rule)

def ruleSet : Option Rule :=
  (queryOf resources selectionSpec).bind fun _ => ruleOf resources queryId selectionSpec

def timeoutSet : Option Duration :=
  (queryOf resources selectionSpec).bind fun _ => selectionSpec.timeout.map resources.duration

variable (selections : List (QuerySelectionSpec Query Rule))

def lastRule : Option Rule :=
  selections.reverse.findSome? (ruleSet resources queryId)

def entryAfter : Option (QueryInfo Query Rule Duration) :=
  selections.foldl (fun old spec => applySelection resources queryId spec old) none

variable (last : QuerySelectionSpec Query Rule)

lemma entryAfter_append : entryAfter resources queryId (selections ++ [last]) =
      applySelection resources queryId last (entryAfter resources queryId selections) := by
  rw [entryAfter, foldl_append]
  rfl

lemma entryAfter_eq_none : entryAfter resources queryId selections = none ↔
      ∀ spec ∈ selections, queryOf resources spec = none := by
  induction selections using reverseRecOn with
  | nil => exact iff_of_true rfl fun spec impossible => nomatch impossible
  | append_singleton before last ih =>
    rw [entryAfter_append, forall_mem_append, <- ih, forall_mem_singleton, applySelection]
    cases queryOf resources last with
    | none => simp
    | some query => simp

lemma rule_entryAfter :
    ((entryAfter resources queryId selections).map QueryInfo.rule).getD resources.emptyRule =
      (lastRule resources queryId selections).getD resources.emptyRule := by
  induction selections using reverseRecOn with
  | nil => rfl
  | append_singleton before last ih =>
    rw [entryAfter_append, lastRule, reverse_append, reverse_singleton,
      singleton_append, findSome?_cons, applySelection, ruleSet]
    cases queryOf resources last with
    | none => exact ih
    | some query =>
      cases ruleOf resources queryId last with
      | none => exact ih
      | some rule => rfl

lemma timeout_entryAfter :
    (entryAfter resources queryId selections).bind QueryInfo.timeout = none ↔
      ∀ spec ∈ selections, timeoutSet resources spec = none := by
  induction selections using reverseRecOn with
  | nil => exact iff_of_true rfl fun spec impossible => nomatch impossible
  | append_singleton before last ih =>
    rw [entryAfter_append, forall_mem_append, <- ih, forall_mem_singleton, applySelection,
      timeoutSet]
    cases queryOf resources last with
    | none => simp
    | some query =>
      cases last.timeout with
      | none => simp
      | some timeout => simp

/-- Nothing is left of the selections in front of the last one: no entry, rule or timeout. -/
structure NothingLeft : Prop where
  query : queryOf resources last = none -> ∀ spec ∈ before, queryOf resources spec = none
  rule : queryOf resources last ≠ none -> ruleOf resources queryId last = none ->
    ∀ rule, lastRule resources queryId before = some rule -> rule = resources.emptyRule
  timeout : queryOf resources last ≠ none -> last.timeout = none ->
    ∀ spec ∈ before, queryOf resources spec ≠ none -> spec.timeout = none

lemma entryAfter_eq_alone :
    entryAfter resources queryId (before ++ [last]) = applySelection resources queryId last none ↔
      NothingLeft resources queryId before last := by
  rw [entryAfter_append]
  cases selected : queryOf resources last with
  | none =>
    rw [applySelection, applySelection, selected]
    rw [entryAfter_eq_none]
    constructor
    · exact fun none_ => ⟨fun _ => none_, fun some_ => absurd selected some_,
        fun some_ => absurd selected some_⟩
    · exact fun nothing => nothing.query selected
  | some query =>
    have some_ : queryOf resources last ≠ none := by
      rw [selected]
      exact some_ne_none query
    have fields : applySelection resources queryId last (entryAfter resources queryId before) =
        applySelection resources queryId last none ↔
          (ruleOf resources queryId last).getD
              ((lastRule resources queryId before).getD resources.emptyRule) =
            (ruleOf resources queryId last).getD resources.emptyRule ∧
          (last.timeout.map resources.duration).or
              ((entryAfter resources queryId before).bind QueryInfo.timeout) =
            last.timeout.map resources.duration := by
      rw [applySelection, applySelection, selected, rule_entryAfter]
      simp
    rw [fields]
    constructor
    · rintro ⟨sameRule, sameTimeout⟩
      refine ⟨fun none_ => absurd none_ some_, ?_, ?_⟩
      · intro _ noRule rule isLast
        rw [noRule, isLast] at sameRule
        exact sameRule
      · intro _ noTimeout spec member hasQuery
        rw [noTimeout] at sameTimeout
        have none_ := (timeout_entryAfter resources queryId before).mp sameTimeout spec member
        rw [timeoutSet] at none_
        cases found : queryOf resources spec with
        | none => exact absurd found hasQuery
        | some other =>
          rw [found] at none_
          exact map_eq_none_iff.mp none_
    · intro nothing
      constructor
      · cases rule : ruleOf resources queryId last with
        | some found => rfl
        | none =>
          cases earlier : lastRule resources queryId before with
          | none => rfl
          | some found => exact nothing.rule some_ rule found earlier
      · cases timeout : last.timeout with
        | some found => rfl
        | none =>
          refine (timeout_entryAfter resources queryId before).mpr fun spec member => ?_
          rw [timeoutSet]
          cases found : queryOf resources spec with
          | none => rfl
          | some other =>
            have hasQuery : queryOf resources spec ≠ none := by
              rw [found]
              exact some_ne_none other
            rw [nothing.timeout some_ timeout spec member hasQuery]
            rfl

variable (serverTag : Text) (serverType : ServerType) (serverClass : Option ServerClass)

def entryAlone (queryId : Text) (selectionSpec : QuerySelectionSpec Query Rule) :
    Option (QueryInfo Query Rule Duration) :=
  (addToQuerySpec resources queryId selectionSpec .empty).2.lookup queryId

/-- In every order, `GetQuerySpec` makes the entries that the last matching selections make alone.
-/
def LastSelectionDecides (selectionSpecs : SelectionSpecs Query Rule)
    (infos : HashMap Text (QueryInfo Query Rule Duration)) : Prop :=
  (∀ order, ∃ others,
    getQuerySpec resources serverTag serverType serverClass order selectionSpecs = .ok others ∧
      ∀ queryId, others.lookup queryId = infos.lookup queryId) ∧
  ∀ queryId, infos.lookup queryId = (selectionSpecs.lookup queryId).bind fun selections =>
      (matching serverTag serverType serverClass selections).getLast?.bind
        (entryAlone resources queryId)

lemma entryAlone_eq {queryId : Text} {selectionSpec : QuerySelectionSpec Query Rule}
    (succeeds : (addToQuerySpec resources queryId selectionSpec .empty).1.isOk = true) :
    entryAlone resources queryId selectionSpec =
      applySelection resources queryId selectionSpec none := by
  rw [entryAlone, (updates_addToQuerySpec resources queryId selectionSpec).lookup _ succeeds, effectAt,
    if_pos (beq_self_eq_true queryId)]
  rfl

/-- Whether `GetQuerySpec` succeeds is decided by each list of selections for itself. -/
lemma exists_getQuerySpec_iff (order : IterationOrder (Text × List (QuerySelectionSpec Query Rule)))
    (selectionSpecs : SelectionSpecs Query Rule) :
    (∃ infos, getQuerySpec resources serverTag serverType serverClass order selectionSpecs =
      .ok infos) ↔
      ∀ entry ∈ selectionSpecs.entries,
        (executeOnQuerySelectionSpecs serverTag serverType serverClass entry.1
          (addToQuerySpec resources) entry.2 .empty).1.isOk = true := by
  have each := isOk_iff_forall serverTag serverType serverClass resources
    (order.iterate selectionSpecs.entries) .empty
  simp only [order.mem_iterate] at each
  rw [<- each, getQuerySpec]
  simp only
  split
  · rename_i fine
    exact iff_of_true ⟨_, rfl⟩ fine
  · rename_i failed
    refine iff_of_false ?_ failed
    rintro ⟨infos, impossible⟩
    cases impossible

/-- A success in one order is a success in all, with the same entries. -/
lemma getQuerySpec_of_order {order : IterationOrder (Text × List (QuerySelectionSpec Query Rule))}
    {selectionSpecs : SelectionSpecs Query Rule}
    {infos : HashMap Text (QueryInfo Query Rule Duration)}
    (succeeded : getQuerySpec resources serverTag serverType serverClass order selectionSpecs =
      .ok infos) (other : IterationOrder (Text × List (QuerySelectionSpec Query Rule))) :
    ∃ others,
      getQuerySpec resources serverTag serverType serverClass other selectionSpecs = .ok others ∧
        ∀ queryId, others.lookup queryId = infos.lookup queryId := by
  have each := (exists_getQuerySpec_iff resources serverTag serverType serverClass order
    selectionSpecs).mp ⟨infos, succeeded⟩
  rcases (exists_getQuerySpec_iff resources serverTag serverType serverClass other
    selectionSpecs).mpr each with ⟨others, alsoSucceeded⟩
  refine ⟨others, alsoSucceeded, fun queryId => ?_⟩
  rw [lookup_getQuerySpec _ _ _ _ alsoSucceeded, lookup_getQuerySpec _ _ _ _ succeeded]

/-- The entry of each query is the one that the last matching selection makes alone, in every order,
exactly if nothing is left of the selections in front of it. -/
theorem getQuerySpec_last_selection_iff :
    ∀ {Query Rule Duration : Type} (resources : Resources Query Rule Duration)
        (serverTag : Text) (serverType : ServerType) (serverClass : Option ServerClass)
        (order : IterationOrder (Text × List (QuerySelectionSpec Query Rule)))
        (selectionSpecs : SelectionSpecs Query Rule)
        (infos : HashMap Text (QueryInfo Query Rule Duration)),
      getQuerySpec resources serverTag serverType serverClass order selectionSpecs = .ok infos ->
      (LastSelectionDecides resources serverTag serverType serverClass selectionSpecs infos ↔
        ∀ queryId selections before last, selectionSpecs.lookup queryId = some selections ->
          matching serverTag serverType serverClass selections = before ++ [last] ->
          NothingLeft resources queryId before last) := by
  intro Query Rule Duration resources serverTag serverType serverClass order selectionSpecs infos
    succeeded
  have entries := lookup_getQuerySpec serverTag serverType serverClass resources succeeded
  have each := (exists_getQuerySpec_iff resources serverTag serverType serverClass order
    selectionSpecs).mp ⟨infos, succeeded⟩
  -- The entry of a query with selections that match, after all of them and alone.
  have compared : ∀ queryId selections before last,
      selectionSpecs.lookup queryId = some selections ->
      matching serverTag serverType serverClass selections = before ++ [last] ->
      (infos.lookup queryId = entryAlone resources queryId last ↔
        NothingLeft resources queryId before last) := by
    intro queryId selections before last present matched
    have inside := (lookup_eq_some_iff_mem selectionSpecs.distinct).mp present
    have isLast : last ∈ matching serverTag serverType serverClass selections := by
      rw [matched]
      exact List.mem_append_right _ (.head _)
    rw [entries, present, Option.bind_some, applySelections, matched, entryAlone_eq resources
      (isOk_of_matching serverTag serverType serverClass resources .empty (each _ inside) last isLast)]
    exact entryAfter_eq_alone resources queryId before last
  constructor
  · intro decides queryId selections before last present matched
    rw [<- compared queryId selections before last present matched, decides.2, present,
      Option.bind_some, matched, List.getLast?_concat, Option.bind_some]
  · intro nothing
    refine ⟨getQuerySpec_of_order resources serverTag serverType serverClass succeeded, ?_⟩
    intro queryId
    cases present : selectionSpecs.lookup queryId with
    | none =>
      rw [entries, present, Option.bind_none, Option.bind_none]
    | some selections =>
      rw [Option.bind_some]
      cases matched : matching serverTag serverType serverClass selections using
        List.reverseRecOn with
      | nil =>
        rw [entries, present, Option.bind_some, applySelections, matched]
        rfl
      | append_singleton before last =>
        rw [List.getLast?_concat]
        exact (compared queryId selections before last present matched).mpr
          (nothing queryId selections before last present matched)

end

/-- Queries and rules that are texts, without files. -/
def textResources : Resources Text Text Int where
  queryId query := query
  emptyQuery := []
  emptyRule := []
  getQuery _ := .error (.notFound [])
  getRules _ := .error (.notFound [])
  duration timeout := timeout.seconds * 1000000000 + timeout.nanos
  getQuery_error := by
    rintro _ _ ⟨⟩
    rfl
  getRules_error := by
    rintro _ _ ⟨⟩
    rfl

/-- A selection of all servers of a type, with a rule or without. -/
def selectionOf (rule : Option Text) : QuerySelectionSpec Text Text :=
  ⟨[⟨some .bmcweb, [], [], []⟩], .queryAndRule ⟨text "query", rule⟩, none⟩

/-- The selections of one query. -/
def selectionsOf (rules : List (Option Text)) : SelectionSpecs Text Text :=
  HashMap.empty.assign (text "query") (rules.map selectionOf)

def entriesOf (rule : Text) : HashMap Text (QueryInfo Text Text Int) :=
  HashMap.empty.assign (text "query") ⟨text "query", rule, none⟩

/-- With two rules. -/
theorem getQuerySpec_last_selection_rules :
    getQuerySpec textResources [] .bmcweb none (.listed _)
        (selectionsOf [some (text "first"), some (text "second")]) =
      .ok (entriesOf (text "second")) ∧
    (LastSelectionDecides textResources [] .bmcweb none
        (selectionsOf [some (text "first"), some (text "second")]) (entriesOf (text "second")) ↔
      ∀ queryId selections before last,
        (selectionsOf [some (text "first"), some (text "second")]).lookup queryId = some selections ->
        matching [] .bmcweb none selections = before ++ [last] ->
        NothingLeft textResources queryId before last) := by
  refine ⟨rfl, ?_⟩
  exact getQuerySpec_last_selection_iff textResources [] .bmcweb none (.listed _) _ _ rfl

/-- The rule of the first selection stays with the query of the second one. -/
theorem getQuerySpec_keeps_rule :
    getQuerySpec textResources [] .bmcweb none (.listed _)
        (selectionsOf [some (text "first"), none]) = .ok (entriesOf (text "first")) ∧
    ¬ LastSelectionDecides textResources [] .bmcweb none (selectionsOf [some (text "first"), none])
      (entriesOf (text "first")) := by
  refine ⟨rfl, fun decides => ?_⟩
  have entry := decides.2 (text "query")
  have rule := congrArg (Option.map QueryInfo.rule) entry
  exact absurd rule (by decide)

end Ecclesia.Router
