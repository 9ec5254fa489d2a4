import Ecclesia.Router.QuerySpec

namespace Ecclesia.Router

open List

/-!
# The effect of selections

Every step of `GetQuerySpec` succeeds or fails whatever the entries are, and if it succeeds it
changes each entry in a certain way.  The steps compose, so the entry of a query after all of
them is what the selections that match make of it, one after another.
-/

variable {Query Rule Duration : Type}

/-- A step on the map that succeeds or not whatever the map, and changes the entries in a certain
way. -/
structure Updates
    (step : HashMap Text (QueryInfo Query Rule Duration) ->
      Status × HashMap Text (QueryInfo Query Rule Duration))
    (effect : Text -> Option (QueryInfo Query Rule Duration) ->
      Option (QueryInfo Query Rule Duration)) : Prop where
  sameStatus : ∀ first second, (step first).1.isOk = (step second).1.isOk
  lookup : ∀ infos, (step infos).1.isOk = true -> ∀ queryId,
    (step infos).2.lookup queryId = effect queryId (infos.lookup queryId)

lemma updates_ok :
    Updates (fun infos : HashMap Text (QueryInfo Query Rule Duration) => (.okStatus, infos))
      fun _ old => old :=
  ⟨fun _ _ => rfl, fun _ _ _ => rfl⟩

variable {status : Status}

lemma updates_error (failed : status.isOk = false)
    (effect : Text -> Option (QueryInfo Query Rule Duration) ->
      Option (QueryInfo Query Rule Duration)) : Updates (fun infos => (status, infos)) effect := by
  refine ⟨fun _ _ => rfl, fun infos succeeds => ?_⟩
  rw [failed] at succeeds
  cases succeeds

lemma Updates.andThen {first second : HashMap Text (QueryInfo Query Rule Duration) ->
      Status × HashMap Text (QueryInfo Query Rule Duration)}
    {before after : Text -> Option (QueryInfo Query Rule Duration) ->
      Option (QueryInfo Query Rule Duration)}
    (updates : Updates first before) (goesOn : Updates second after) :
    Updates
      (fun infos => match first infos with
        | (status, changed) => if status.isOk then second changed else (status, changed))
      fun queryId old => after queryId (before queryId old) := by
  constructor
  · intro one other
    have same := updates.sameStatus one other
    simp only
    by_cases fine : (first one).1.isOk = true
    · rw [if_pos fine, if_pos (same ▸ fine)]
      exact goesOn.sameStatus _ _
    · rw [if_neg fine, if_neg (same ▸ fine)]
      exact same
  · intro infos succeeds queryId
    simp only at succeeds ⊢
    by_cases fine : (first infos).1.isOk = true
    · rw [if_pos fine] at succeeds ⊢
      rw [goesOn.lookup _ succeeds queryId, updates.lookup infos fine queryId]
    · rw [if_neg fine] at succeeds
      exact absurd succeeds fine

section

variable (resources : Resources Query Rule Duration)

variable (queryId : Text) (selectionSpec : QuerySelectionSpec Query Rule)

def ruleOf : Option Rule :=
  match selectionSpec.querySpec with
  | .queryAndRulePath paths =>
    if paths.rulePath.isEmpty then none
    else
      match resources.getRules paths.rulePath with
      | .error _ => none
      | .ok queryRules => queryRules.lookup queryId
  | .queryAndRule messages => messages.rule
  | .notSet => none

def queryOf : Option Query :=
  match selectionSpec.querySpec with
  | .queryAndRulePath paths => (resources.getQuery paths.queryPath).toOption
  | .queryAndRule messages => some messages.query
  | .notSet => none

variable (old : Option (QueryInfo Query Rule Duration))

/-- What a selection makes of the entry of its query. -/
def applySelection : Option (QueryInfo Query Rule Duration) :=
  match queryOf resources selectionSpec with
  | none => old
  | some query =>
    some {
      query := query
      rule := (ruleOf resources queryId selectionSpec).getD
        ((old.map QueryInfo.rule).getD resources.emptyRule)
      timeout := (selectionSpec.timeout.map resources.duration).or (old.bind QueryInfo.timeout) }

def effectAt
    (effect : Option (QueryInfo Query Rule Duration) -> Option (QueryInfo Query Rule Duration))
    (other : Text) (old : Option (QueryInfo Query Rule Duration)) :
    Option (QueryInfo Query Rule Duration) :=
  if other == queryId then effect old else old

variable {effect : Option (QueryInfo Query Rule Duration) -> Option (QueryInfo Query Rule Duration)}

lemma lookup_assign_effectAt (infos : HashMap Text (QueryInfo Query Rule Duration))
    (queryId other : Text) {info : QueryInfo Query Rule Duration}
    (made : effect (infos.lookup queryId) = some info) :
    (infos.assign queryId info).lookup other = effectAt queryId effect other
    (infos.lookup other) := by
  rw [HashMap.lookup_assign, effectAt]
  split
  · rename_i same
    rw [eq_of_beq same, made]
  · rfl

lemma updates_assign
    {info : HashMap Text (QueryInfo Query Rule Duration) -> QueryInfo Query Rule Duration}
    (made : ∀ infos, effect (infos.lookup queryId) = some (info infos)) :
    Updates (fun infos => (.okStatus, infos.assign queryId (info infos)))
      (effectAt queryId effect) :=
  ⟨fun _ _ => rfl, fun infos _ other => lookup_assign_effectAt infos queryId other (made infos)⟩

lemma applySelection_eq {queryId : Text} {selectionSpec : QuerySelectionSpec Query Rule}
    {query : Query} (selected : queryOf resources selectionSpec = some query)
    (infos : HashMap Text (QueryInfo Query Rule Duration)) :
    applySelection resources queryId selectionSpec (infos.lookup queryId) =
      some (addTimeoutFromSelectionSpec resources selectionSpec
        { infoAt resources infos queryId with
          query := query
          rule := (ruleOf resources queryId selectionSpec).getD
            (infoAt resources infos queryId).rule }) := by
  rw [applySelection, selected, addTimeoutFromSelectionSpec, infoAt]
  cases infos.lookup queryId with
  | none =>
    cases selectionSpec.timeout with
    | none => rfl
    | some timeout => rfl
  | some info =>
    cases selectionSpec.timeout with
    | none => rfl
    | some timeout => rfl

/-- One selection: whether it fails does not depend on the entries, and it changes that of its
query only. -/
lemma updates_addToQuerySpec : Updates (addToQuerySpec resources queryId selectionSpec)
      (effectAt queryId (applySelection resources queryId selectionSpec)) := by
  unfold addToQuerySpec
  cases source : selectionSpec.querySpec with
  | notSet =>
    have none_ : queryOf resources selectionSpec = none := by
      rw [queryOf, source]
    refine ⟨fun _ _ => rfl, fun infos _ other => ?_⟩
    rw [effectAt, applySelection, none_, ite_self]
  | queryAndRule messages =>
    have selected : queryOf resources selectionSpec = some messages.query := by
      rw [queryOf, source]
    have rule : ruleOf resources queryId selectionSpec = messages.rule := by
      rw [ruleOf, source]
    refine updates_assign queryId fun infos => ?_
    rw [applySelection_eq resources selected infos, rule]
    cases messages.rule with
    | none => rfl
    | some rule => rfl
  | queryAndRulePath paths =>
    by_cases noPath : paths.queryPath.isEmpty = true
    · simp only [if_pos noPath]
      exact updates_error rfl _
    · simp only [if_neg noPath]
      cases read : resources.getQuery paths.queryPath with
      | error status => exact updates_error (resources.getQuery_error _ _ read) _
      | ok query =>
        have selected : queryOf resources selectionSpec = some query := by
          rw [queryOf, source]
          simp only [read]
          rfl
        by_cases mismatch : (queryId != resources.queryId query) = true
        · simp only [if_pos mismatch]
          exact updates_error rfl _
        · simp only [if_neg mismatch]
          by_cases noRules : paths.rulePath.isEmpty = true
          · have rule : ruleOf resources queryId selectionSpec = none := by
              rw [ruleOf, source]
              exact if_pos noRules
            simp only [if_pos noRules]
            refine updates_assign queryId fun infos => ?_
            rw [applySelection_eq resources selected infos, rule]
            rfl
          · simp only [if_neg noRules]
            cases readRules : resources.getRules paths.rulePath with
            | error status =>
              have failed := resources.getRules_error _ _ readRules
              refine ⟨fun _ _ => rfl, fun infos succeeds => ?_⟩
              rw [failed] at succeeds
              cases succeeds
            | ok queryRules =>
              have rule : ruleOf resources queryId selectionSpec = queryRules.lookup queryId := by
                rw [ruleOf, source]
                simp only [if_neg noRules, readRules]
              cases found : queryRules.lookup queryId with
              | none =>
                simp only [found]
                refine updates_assign queryId fun infos => ?_
                rw [applySelection_eq resources selected infos, rule, found]
                rfl
              | some newRule =>
                simp only [found]
                refine updates_assign queryId fun infos => ?_
                rw [applySelection_eq resources selected infos, rule, found,
                  addTimeoutFromSelectionSpec, addTimeoutFromSelectionSpec]
                cases selectionSpec.timeout with
                | none => rfl
                | some timeout => rfl

lemma effectAt_again {queryId : Text} (again : ∀ old, effect (effect old) = effect old)
    (other : Text) (old : Option (QueryInfo Query Rule Duration)) :
    effectAt queryId effect other (effectAt queryId effect other old) =
      effectAt queryId effect other old := by
  unfold effectAt
  split
  · exact again old
  · rfl

lemma applySelection_again : applySelection resources queryId selectionSpec
        (applySelection resources queryId selectionSpec old) =
      applySelection resources queryId selectionSpec old := by
  unfold applySelection
  cases queryOf resources selectionSpec with
  | none => rfl
  | some query =>
    cases ruleOf resources queryId selectionSpec with
    | none =>
      cases selectionSpec.timeout with
      | none => rfl
      | some timeout => rfl
    | some rule =>
      cases selectionSpec.timeout with
      | none => rfl
      | some timeout => rfl

end

lemma Updates.congr {step : HashMap Text (QueryInfo Query Rule Duration) ->
      Status × HashMap Text (QueryInfo Query Rule Duration)}
    {effect other : Text -> Option (QueryInfo Query Rule Duration) ->
      Option (QueryInfo Query Rule Duration)} (updates : Updates step effect)
    (same : ∀ queryId old, effect queryId old = other queryId old) : Updates step other :=
  ⟨updates.sameStatus, fun infos succeeds queryId =>
    (updates.lookup infos succeeds queryId).trans (same queryId _)⟩

lemma Updates.of_eq {step other : HashMap Text (QueryInfo Query Rule Duration) ->
      Status × HashMap Text (QueryInfo Query Rule Duration)}
    {effect : Text -> Option (QueryInfo Query Rule Duration) ->
      Option (QueryInfo Query Rule Duration)} (updates : Updates step effect)
    (same : ∀ infos, other infos = step infos) : Updates other effect := by
  rw [funext same]
  exact updates

variable (serverTag : Text) (serverType : ServerType) (serverClass : Option ServerClass)

/-- The server is one of those that are selected. -/
def isMatched (select : SelectionClass) : Bool :=
  match selectionMatched select serverTag serverType serverClass with
  | .ok matched => matched
  | .error _ => false

def matching (selectionSpecs : List (QuerySelectionSpec Query Rule)) :
    List (QuerySelectionSpec Query Rule) :=
  selectionSpecs.filter fun spec => spec.select.any (isMatched serverTag serverType serverClass)

lemma not_isOk_of_classMatched {Class : Type} [DecidableEq Class] {unspecified : Class}
    {message : String} {isServers : Class -> Bool} (classes : List Class)
    (failed : classMatched unspecified message isServers classes = .error status) :
    status.isOk = false := by
  induction classes with
  | nil => cases failed
  | cons first rest ih =>
    rw [classMatched] at failed
    split at failed
    · cases failed
      rfl
    · split at failed
      · cases failed
      · exact ih failed

lemma not_isOk_of_selectionMatched {select : SelectionClass}
    (failed : selectionMatched select serverTag serverType serverClass = .error status) :
    status.isOk = false := by
  unfold selectionMatched at failed
  by_cases empty : select.isEmpty = true
  · rw [if_pos empty] at failed
    cases failed
    rfl
  · rw [if_neg empty] at failed
    cases typeMatched : queryTypeMatched select serverType with
    | error typeStatus =>
      rw [typeMatched] at failed
      cases failed
      unfold queryTypeMatched at typeMatched
      split at typeMatched
      · cases typeMatched
      · split at typeMatched
        · cases typeMatched
          rfl
        · cases typeMatched
    | ok ofType =>
      cases classMatched_ : queryClassMatched select serverClass with
      | error classStatus =>
        rw [typeMatched, classMatched_] at failed
        cases failed
        unfold queryClassMatched at classMatched_
        split at classMatched_
        · cases classMatched_
        · split at classMatched_
          · exact not_isOk_of_classMatched _ classMatched_
          · split at classMatched_
            · exact not_isOk_of_classMatched _ classMatched_
            · cases classMatched_
      | ok ofClass =>
        rw [typeMatched, classMatched_] at failed
        cases failed

variable
  {executeFn : HashMap Text (QueryInfo Query Rule Duration) ->
      Status × HashMap Text (QueryInfo Query Rule Duration)}

lemma updates_executeOnMatchingSelections
    {effect : Text -> Option (QueryInfo Query Rule Duration) ->
      Option (QueryInfo Query Rule Duration)} (updates : Updates executeFn effect)
    (again : ∀ queryId old, effect queryId (effect queryId old) = effect queryId old)
    (selects : List SelectionClass) :
    Updates (executeOnMatchingSelections serverTag serverType serverClass executeFn selects)
      fun queryId old =>
        if selects.any (isMatched serverTag serverType serverClass) then effect queryId old
        else old := by
  induction selects with
  | nil => exact updates_ok
  | cons select rest ih =>
    cases matched : selectionMatched select serverTag serverType serverClass with
    | error status =>
      refine (updates_error (not_isOk_of_selectionMatched _ _ _ matched) _).of_eq fun infos => ?_
      rw [executeOnMatchingSelections, matched]
    | ok isServers =>
      have here : isMatched serverTag serverType serverClass select = isServers := by
        rw [isMatched, matched]
      cases isServers with
      | false =>
        simp only [any_cons, here, Bool.false_or]
        refine ih.of_eq fun infos => ?_
        rw [executeOnMatchingSelections, matched]
      | true =>
        simp only [any_cons, here]
        refine ((updates.andThen ih).congr fun queryId old => ?_).of_eq fun infos => ?_
        rotate_left
        · rw [executeOnMatchingSelections, matched]
        split
        · exact again queryId old
        · rfl

variable (resources : Resources Query Rule Duration)

/-- What the selections that match make of the entry of their query, one after another. -/
def applySelections (queryId : Text) (selectionSpecs : List (QuerySelectionSpec Query Rule))
    (old : Option (QueryInfo Query Rule Duration)) : Option (QueryInfo Query Rule Duration) :=
  (matching serverTag serverType serverClass selectionSpecs).foldl
    (fun old spec => applySelection resources queryId spec old) old

lemma updates_executeOnQuerySelectionSpecs (queryId : Text)
    (selectionSpecs : List (QuerySelectionSpec Query Rule)) :
    Updates
      (executeOnQuerySelectionSpecs serverTag serverType serverClass queryId
        (addToQuerySpec resources) selectionSpecs)
      (effectAt queryId
        (applySelections serverTag serverType serverClass resources queryId selectionSpecs)) := by
  induction selectionSpecs with
  | nil =>
    refine updates_ok.congr fun other old => ?_
    rw [effectAt, applySelections, matching, filter_nil, foldl_nil, ite_self]
  | cons spec rest ih =>
    have unfolded : executeOnQuerySelectionSpecs serverTag serverType serverClass queryId
        (addToQuerySpec resources) (spec :: rest) = fun infos =>
          if spec.select.isEmpty then
            (.failedPrecondition
              (text "Both server tag and server type not specified for query: " ++ queryId), infos)
          else
            match executeOnMatchingSelections serverTag serverType serverClass
              (addToQuerySpec resources queryId spec) spec.select infos with
            | (status, after) =>
              if status.isOk then
                executeOnQuerySelectionSpecs serverTag serverType serverClass queryId
                  (addToQuerySpec resources) rest after
              else (status, after) := by
      funext infos
      rw [executeOnQuerySelectionSpecs]
    rw [unfolded]
    by_cases empty : spec.select.isEmpty = true
    · simp only [if_pos empty]
      exact updates_error rfl _
    · simp only [if_neg empty]
      have here := updates_executeOnMatchingSelections serverTag serverType serverClass
        (updates_addToQuerySpec resources queryId spec)
        (effectAt_again (applySelection_again resources queryId spec)) spec.select
      refine (here.andThen ih).congr fun other old => ?_
      by_cases same : (other == queryId) = true
      · simp only [effectAt, if_pos same]
        rw [applySelections, applySelections, matching, matching, filter_cons]
        split
        · rfl
        · rfl
      · simp only [effectAt, if_neg same, ite_self]

lemma updates_executeOnMatchingQuerySelections
    (entries : List (Text × List (QuerySelectionSpec Query Rule))) :
    Updates
      (executeOnMatchingQuerySelections serverTag serverType serverClass (addToQuerySpec resources)
        entries)
      fun queryId old => entries.foldl (fun old entry =>
        effectAt entry.1
          (applySelections serverTag serverType serverClass resources entry.1 entry.2) queryId old)
        old := by
  induction entries with
  | nil => exact updates_ok
  | cons entry rest ih =>
    have unfolded : executeOnMatchingQuerySelections serverTag serverType serverClass
        (addToQuerySpec resources) (entry :: rest) = fun infos =>
          match executeOnQuerySelectionSpecs serverTag serverType serverClass entry.1
            (addToQuerySpec resources) entry.2 infos with
          | (status, after) =>
            if status.isOk then
              executeOnMatchingQuerySelections serverTag serverType serverClass
                (addToQuerySpec resources) rest after
            else (status, after) := by
      funext infos
      rw [executeOnMatchingQuerySelections]
    exact (updates_executeOnQuerySelectionSpecs serverTag serverType serverClass resources entry.1
      entry.2).andThen ih

lemma foldl_effectAt {entries : List (Text × List (QuerySelectionSpec Query Rule))} :
    (entries.map Prod.fst).Nodup -> ∀ (queryId : Text)
      (old : Option (QueryInfo Query Rule Duration)),
    entries.foldl (fun old entry =>
        effectAt entry.1
          (applySelections serverTag serverType serverClass resources entry.1 entry.2) queryId old)
        old =
      match entries.lookup queryId with
      | some selections =>
        applySelections serverTag serverType serverClass resources queryId selections old
      | none => old := by
  induction entries with
  | nil => exact fun _ _ _ => rfl
  | cons entry rest ih =>
    intro distinct queryId old
    rcases entry with ⟨present, selections⟩
    rcases nodup_cons.mp distinct with ⟨absent, distinctRest⟩
    rw [foldl_cons, ih distinctRest, lookup_cons]
    by_cases same : queryId = present
    · subst same
      have missing : rest.lookup queryId = none := by
        rw [<- Option.not_isSome_iff_eq_none, lookup_isSome_iff]
        exact absent
      rw [missing, beq_self_eq_true, effectAt, if_pos (beq_self_eq_true queryId)]
    · rw [beq_false_of_ne same, effectAt, if_neg (by simpa using same)]

lemma lookup_iterate (order : IterationOrder (Text × List (QuerySelectionSpec Query Rule)))
    (selectionSpecs : SelectionSpecs Query Rule) (queryId : Text) :
    (order.iterate selectionSpecs.entries).lookup queryId = selectionSpecs.lookup queryId := by
  have perm := order.perm selectionSpecs.entries
  have distinct := (perm.map Prod.fst).nodup_iff.mpr selectionSpecs.distinct
  ext selections
  rw [lookup_eq_some_iff_mem distinct, perm.mem_iff, <- lookup_eq_some_iff_mem selectionSpecs.distinct]
  rfl

lemma lookup_getQuerySpec {order : IterationOrder (Text × List (QuerySelectionSpec Query Rule))}
    {selectionSpecs : SelectionSpecs Query Rule}
    {infos : HashMap Text (QueryInfo Query Rule Duration)}
    (succeeded : getQuerySpec resources serverTag serverType serverClass order selectionSpecs =
      .ok infos) (queryId : Text) :
    infos.lookup queryId = (selectionSpecs.lookup queryId).bind fun selections =>
      applySelections serverTag serverType serverClass resources queryId selections none := by
  have updates := updates_executeOnMatchingQuerySelections serverTag serverType serverClass resources
    (order.iterate selectionSpecs.entries)
  have after := updates.lookup .empty
  unfold getQuerySpec at succeeded
  simp only at succeeded
  split at succeeded
  · rename_i fine
    cases succeeded
    have perm := order.perm selectionSpecs.entries
    rw [after fine, foldl_effectAt _ _ _ _ ((perm.map Prod.fst).nodup_iff.mpr selectionSpecs.distinct),
      lookup_iterate]
    cases selectionSpecs.lookup queryId with
    | none => rfl
    | some selections => rfl
  · cases succeeded

lemma isOk_andThen_iff {World : Type} (first second : World -> Status × World) (world : World) :
    (match first world with
      | (status, after) => if status.isOk then second after else (status, after)).1.isOk = true ↔
      (first world).1.isOk = true ∧ (second (first world).2).1.isOk = true := by
  by_cases fine : (first world).1.isOk = true
  · simp [fine]
  · simp [fine]

lemma isOk_of_any
    (sameStatus : ∀ first second, (executeFn first).1.isOk = (executeFn second).1.isOk)
    {selects : List SelectionClass} :
    ∀ infos, (executeOnMatchingSelections serverTag serverType serverClass executeFn selects
        infos).1.isOk = true ->
      selects.any (isMatched serverTag serverType serverClass) = true ->
      (executeFn .empty).1.isOk = true := by
  induction selects with
  | nil => exact fun _ _ impossible => absurd impossible Bool.false_ne_true
  | cons select rest ih =>
    intro infos succeeded matched
    rw [executeOnMatchingSelections] at succeeded
    rw [any_cons, isMatched] at matched
    cases decided : selectionMatched select serverTag serverType serverClass with
    | error status =>
      rw [decided] at succeeded
      have failed := not_isOk_of_selectionMatched _ _ _ decided
      rw [failed] at succeeded
      cases succeeded
    | ok isServers =>
      rw [decided] at succeeded matched
      cases isServers with
      | false => exact ih infos succeeded matched
      | true =>
        have fine := ((isOk_andThen_iff executeFn _ infos).mp succeeded).1
        rw [sameStatus .empty infos]
        exact fine

lemma isOk_of_matching {queryId : Text} {selections : List (QuerySelectionSpec Query Rule)} :
    ∀ infos, (executeOnQuerySelectionSpecs serverTag serverType serverClass queryId
        (addToQuerySpec resources) selections infos).1.isOk = true ->
      ∀ spec ∈ matching serverTag serverType serverClass selections,
        (addToQuerySpec resources queryId spec .empty).1.isOk = true := by
  induction selections with
  | nil => exact fun _ _ _ impossible => nomatch impossible
  | cons first rest ih =>
    intro infos succeeded spec member
    rw [executeOnQuerySelectionSpecs] at succeeded
    split at succeeded
    · cases succeeded
    · rcases (isOk_andThen_iff _ _ infos).mp succeeded with ⟨here, later⟩
      rcases mem_filter.mp member with ⟨inside, matched⟩
      rcases mem_cons.mp inside with rfl | inside
      · exact isOk_of_any _ _ _ (updates_addToQuerySpec resources queryId spec).sameStatus infos here
          matched
      · exact ih _ later spec (mem_filter.mpr ⟨inside, matched⟩)

lemma isOk_iff_forall (entries : List (Text × List (QuerySelectionSpec Query Rule))) :
    ∀ infos, (executeOnMatchingQuerySelections serverTag serverType serverClass
        (addToQuerySpec resources) entries infos).1.isOk = true ↔
      ∀ entry ∈ entries,
        (executeOnQuerySelectionSpecs serverTag serverType serverClass entry.1
          (addToQuerySpec resources) entry.2 .empty).1.isOk = true := by
  induction entries with
  | nil => exact fun infos => iff_of_true rfl fun entry impossible => nomatch impossible
  | cons entry rest ih =>
    intro infos
    rw [executeOnMatchingQuerySelections, isOk_andThen_iff, ih, forall_mem_cons]
    rw [(updates_executeOnQuerySelectionSpecs serverTag serverType serverClass resources entry.1
      entry.2).sameStatus infos .empty]

end Ecclesia.Router
