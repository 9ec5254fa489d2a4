import Mathlib.Data.List.Sort
import Mathlib.Data.Char
import Ecclesia.Planner.Builder

namespace Ecclesia.Planner

open Absl Query List

/-!
# Freshness of expanded paths

A resource that is fetched with an expand brings the resources below it along.
If one of them has to be fresh, the resource itself has to be fetched fresh, so
`CombineQueryParams` lets the requirement bubble up.  It visits the paths of its
table once, in the order of their texts, and remembers the last path with an
expand.  A path is only compared with that one.

The table of the program is a hash map that is copied into an ordered map for the
pass.  Here the map stays as it is and its keys are visited in order.
-/

/-! ## The program -/

/-- The characters of a node name in the regular expression of `query_planner_impl.cc`. -/
def isPlannerNameCharacter (c : Char) : Bool :=
  asciiIsAlnum c || c == '.'

def stepLevels (stepExpression : Text) : Nat :=
  match matchLocationStep isPlannerNameCharacter stepExpression with
  | none => 0
  | some (nodeName, predicate) =>
    (if nodeName.isEmpty then 0 else 1) + (if predicate.isEmpty then 0 else 1)

def isInExpandPath (childRedpath parentRedpath : Text) (parentExpandLevels : Nat) : Bool :=
  let diff := childRedpath.drop parentRedpath.length
  let stepExpressions := (strSplit '/' diff).filter fun step => !step.isEmpty
  (stepExpressions.map stepLevels).sum <= parentExpandLevels

/-- A bracket that has been opened is closed on the same line. -/
def closes (rest : Text) : Bool :=
  rest.find? (fun c => c == ']' || c == '\n') == some ']'

/-- The text from here on; the flag says that a predicate is being left out. -/
def replacePredicatesFrom : Bool -> Text -> Text
  | _, [] => []
  | true, c :: rest => replacePredicatesFrom (c != ']') rest
  | false, c :: rest =>
    if c == '[' && closes rest then text "[*]" ++ replacePredicatesFrom true rest
    else c :: replacePredicatesFrom false rest

/-- `RE2::GlobalReplace` of every predicate by one that selects all members. -/
def replacePredicates (redpath : Text) : Text :=
  replacePredicatesFrom false redpath

/-- `redpath()`, which is empty when another form of resource is set. -/
def redpathOf (subquery : Subquery) : Text :=
  match subquery.resource with
  | .redpath redpath => redpath
  | _ => []

def extendPrefix (redpathPrefix : Text) (subquery : Subquery) : Text :=
  let redpath := replacePredicates (redpathOf subquery)
  if startsWith redpath (text "/") then redpathPrefix ++ redpath
  else redpathPrefix ++ text "/" ++ redpath

def targetPrefix (redpathPrefix : Text) (subquery : Subquery) : Text :=
  match subquery.resource with
  | .uri uri => uri
  | _ => redpathPrefix

/-- Set the freshness of an entry, which is inserted if it is not there. -/
def requireFresh (table : HashMap Text GetParams) (path : Text) : HashMap Text GetParams :=
  table.assign path { (table.lookup path).getD {} with freshness := .required }

/-- The loop over the subqueries of a sequence; none if a subquery is not found. -/
def mergeSequence (query : DelliciusQuery) :
    Text -> List Text -> HashMap Text GetParams -> Option (HashMap Text GetParams)
  | _, [], table => some table
  | redpathPrefix, subqueryId :: rest, table =>
    match findSubquery query subqueryId with
    | none => none
    | some subquery =>
      let extended := extendPrefix redpathPrefix subquery
      if subquery.freshness != .required then mergeSequence query extended rest table
      else
        mergeSequence query extended rest (requireFresh table (targetPrefix extended subquery))

/-- The loop over the sequences. -/
def mergeFreshness (query : DelliciusQuery) (allJoinedSubqueries : List (List Text))
    (table : HashMap Text GetParams) : Option (HashMap Text GetParams) :=
  allJoinedSubqueries.foldlM (fun table sequence => mergeSequence query [] sequence table) table

/-- What the pass over the ordered paths changes. -/
structure BubbleState where
  table : HashMap Text GetParams
  lastRedpathWithExpand : Option Text

/-- Whether the path that is visited makes the last path with an expand fresh. -/
def bubblesUp (redpath : Text) (params : GetParams) (last : Text) (lastParams : GetParams) : Bool :=
  params.freshness == .required && startsWith redpath last &&
    lastParams.expand.any (fun expand => isInExpandPath redpath last expand.levels) &&
    lastParams.freshness == .optional

/-- The table after the first statement of the loop. -/
def bubbleTable (state : BubbleState) (redpath : Text) (params : GetParams) :
    HashMap Text GetParams :=
  match state.lastRedpathWithExpand with
  | none => state.table
  | some last =>
    if (state.table.lookup last).any (bubblesUp redpath params last) then
      requireFresh state.table last
    else state.table

/-- The visit of one path. -/
def bubbleStep (state : BubbleState) (redpath : Text) : BubbleState :=
  match state.table.lookup redpath with
  | none => state
  | some params =>
    ⟨bubbleTable state redpath params,
      if params.expand.any (fun expand => 0 < expand.levels) then some redpath
      else state.lastRedpathWithExpand⟩

def orderedKeys (table : HashMap Text GetParams) : List Text :=
  table.keys.insertionSort (· <= ·)

def combineQueryParams (order : IterationOrder (List Text)) (query : DelliciusQuery)
    (redpathToQueryParams : HashMap Text GetParams) (allJoinedSubqueries : List (List Text)) :
    Option (HashMap Text GetParams) :=
  (mergeFreshness query (order.iterate allJoinedSubqueries) redpathToQueryParams).map
    fun merged => ((orderedKeys merged).foldl bubbleStep ⟨merged, none⟩).table

/-! ## Entries that become fresh -/

/-- The parameters of the path require a fresh fetch. -/
def Fresh (table : HashMap Text GetParams) (path : Text) : Prop :=
  ∃ params, table.lookup path = some params ∧ params.freshness = .required

def ExpandsBy (table : HashMap Text GetParams) (path : Text) (levels : Nat) : Prop :=
  ∃ params expand, table.lookup path = some params ∧ params.expand = some expand ∧
    expand.levels = levels

/-- The marked paths are fresh now, and nothing else has changed. -/
structure Refreshed (before after : HashMap Text GetParams) (marked : Text -> Prop) : Prop where
  fresh : ∀ path, marked path ->
    after.lookup path = some { (before.lookup path).getD {} with freshness := .required }
  kept : ∀ path, ¬ marked path -> after.lookup path = before.lookup path

namespace Refreshed

variable {before after : HashMap Text GetParams} {marked : Text -> Prop}

lemma nothing (table : HashMap Text GetParams) : Refreshed table table fun _ => False where
  fresh _ impossible := impossible.elim
  kept _ _ := rfl

section

variable (refreshed : Refreshed before after marked)

include refreshed

lemma congr {others : Text -> Prop}
    (same : ∀ path, marked path ↔ others path) : Refreshed before after others where
  fresh path other := refreshed.fresh path ((same path).mpr other)
  kept path other := refreshed.kept path fun isMarked => other ((same path).mp isMarked)

lemma requireFresh (path : Text) :
    Refreshed before (requireFresh after path) fun other => marked other ∨ other = path where
  fresh other either := by
    rw [Planner.requireFresh, HashMap.lookup_assign]
    by_cases same : other = path
    · subst same
      rw [if_pos (beq_self_eq_true other)]
      by_cases already : marked other
      · rw [refreshed.fresh other already]
        rfl
      · rw [refreshed.kept other already]
    · rw [if_neg (by simpa using same)]
      exact refreshed.fresh other (either.resolve_right same)
  kept other neither := by
    rw [not_or] at neither
    rw [Planner.requireFresh, HashMap.lookup_assign, if_neg (by simpa using neither.2)]
    exact refreshed.kept other neither.1

lemma fresh_iff {path : Text} : Fresh after path ↔ Fresh before path ∨ marked path := by
  by_cases isMarked : marked path
  · constructor
    · exact fun _ => .inr isMarked
    · exact fun _ => ⟨_, refreshed.fresh path isMarked, rfl⟩
  · rw [Fresh, refreshed.kept path isMarked, or_iff_left isMarked]
    rfl

lemma already {path : Text}
    (fresh : Fresh after path) : Refreshed before after fun other => marked other ∨ other = path where
  fresh other either := by
    by_cases isMarked : marked other
    · exact refreshed.fresh other isMarked
    · rcases either.resolve_left isMarked with rfl
      rcases fresh with ⟨params, found, required⟩
      rw [<- refreshed.kept other isMarked, found, Option.getD_some, <- required]
  kept other neither := refreshed.kept other fun isMarked => neither (.inl isMarked)

lemma expandsBy_iff {path : Text} {levels : Nat} :
    ExpandsBy after path levels ↔ ExpandsBy before path levels := by
  by_cases isMarked : marked path
  · rw [ExpandsBy, ExpandsBy, refreshed.fresh path isMarked]
    cases before.lookup path with
    | none => simp
    | some params => simp
  · rw [ExpandsBy, refreshed.kept path isMarked]
    rfl

end

end Refreshed

/-! ## What the query asks for -/

/-- The path that the subqueries of a sequence spell one after another. -/
def spelledPrefix (query : DelliciusQuery) (redpathPrefix : Text) (sequence : List Text) : Text :=
  sequence.foldl (fun redpathPrefix subqueryId =>
      ((findSubquery query subqueryId).map (extendPrefix redpathPrefix)).getD redpathPrefix)
    redpathPrefix

/-- A subquery of the sequence asks for fresh data, and this is the path of its data. -/
def AsksFresh (query : DelliciusQuery) (redpathPrefix : Text) (sequence : List Text)
    (path : Text) : Prop :=
  ∃ earlier subqueryId later subquery, sequence = earlier ++ subqueryId :: later ∧
    findSubquery query subqueryId = some subquery ∧ subquery.freshness = .required ∧
    targetPrefix (extendPrefix (spelledPrefix query redpathPrefix earlier) subquery) subquery = path

def RequiredAt (rules : HashMap Text GetParams) (query : DelliciusQuery)
    (sequences : List (List Text)) (path : Text) : Prop :=
  Fresh rules path ∨ ∃ sequence ∈ sequences, AsksFresh query [] sequence path

variable {query : DelliciusQuery} {path : Text}

lemma asksFresh_cons {redpathPrefix subqueryId : Text} {rest : List Text} {subquery : Subquery}
    (found : findSubquery query subqueryId = some subquery) :
    AsksFresh query redpathPrefix (subqueryId :: rest) path ↔
      (subquery.freshness = .required ∧
        targetPrefix (extendPrefix redpathPrefix subquery) subquery = path) ∨
      AsksFresh query (extendPrefix redpathPrefix subquery) rest path := by
  constructor
  · rintro ⟨earlier, other, later, asking, split, foundOther, required, target⟩
    cases earlier with
    | nil =>
      cases split
      rw [found] at foundOther
      cases foundOther
      exact .inl ⟨required, target⟩
    | cons first earlier =>
      cases split
      rw [spelledPrefix, foldl_cons, found] at target
      exact .inr ⟨earlier, other, later, asking, rfl, foundOther, required, target⟩
  · rintro (⟨required, target⟩ | ⟨earlier, other, later, asking, rfl, foundOther, required, target⟩)
    · exact ⟨[], subqueryId, rest, subquery, rfl, found, required, target⟩
    · refine ⟨subqueryId :: earlier, other, later, asking, rfl, foundOther, required, ?_⟩
      rw [spelledPrefix, foldl_cons, found]
      exact target

variable {rules : HashMap Text GetParams}

lemma mergeSequence_refreshed (sequence : List Text)
    (known : ∀ subqueryId ∈ sequence, (findSubquery query subqueryId).isSome) :
    ∀ {table : HashMap Text GetParams} {marked : Text -> Prop} (redpathPrefix : Text),
      Refreshed rules table marked ->
      ∃ after, mergeSequence query redpathPrefix sequence table = some after ∧
        Refreshed rules after fun path => marked path ∨ AsksFresh query redpathPrefix sequence path := by
  induction sequence with
  | nil =>
    intro table marked redpathPrefix refreshed
    refine ⟨table, rfl, refreshed.congr fun path => (or_iff_left ?_).symm⟩
    rintro ⟨earlier, subqueryId, later, subquery, split, -⟩
    simp at split
  | cons subqueryId rest ih =>
    intro table marked redpathPrefix refreshed
    rcases Option.isSome_iff_exists.mp (known subqueryId (.head _)) with ⟨subquery, found⟩
    have knownRest : ∀ other ∈ rest, (findSubquery query other).isSome :=
      fun other inside => known other (.tail _ inside)
    simp only [mergeSequence, found, asksFresh_cons found]
    by_cases required : subquery.freshness = .required
    · rw [if_neg (by simpa using required)]
      rcases ih knownRest (extendPrefix redpathPrefix subquery)
        (refreshed.requireFresh (targetPrefix (extendPrefix redpathPrefix subquery) subquery)) with
        ⟨after, ran, done⟩
      refine ⟨after, ran, done.congr fun path => ?_⟩
      rw [or_assoc, eq_comm, and_iff_right required]
    · rw [if_pos (by simpa using required)]
      rcases ih knownRest (extendPrefix redpathPrefix subquery) refreshed with ⟨after, ran, done⟩
      refine ⟨after, ran, done.congr fun path => ?_⟩
      simp only [required, false_and, false_or]

lemma mergeFreshness_refreshed (sequences : List (List Text))
    (known : ∀ sequence ∈ sequences, ∀ subqueryId ∈ sequence,
      (findSubquery query subqueryId).isSome) :
    ∀ {table : HashMap Text GetParams} {marked : Text -> Prop}, Refreshed rules table marked ->
      ∃ after, mergeFreshness query sequences table = some after ∧
        Refreshed rules after fun path => marked path ∨
          ∃ sequence ∈ sequences, AsksFresh query [] sequence path := by
  induction sequences with
  | nil =>
    intro table marked refreshed
    exact ⟨table, rfl, refreshed.congr fun path => by simp⟩
  | cons sequence rest ih =>
    intro table marked refreshed
    rcases mergeSequence_refreshed sequence (known sequence (.head _)) [] refreshed with
      ⟨next, ran, nextRefreshed⟩
    rcases ih (fun other inside => known other (.tail _ inside)) nextRefreshed with
      ⟨after, ranRest, done⟩
    refine ⟨after, ?_, done.congr fun path => ?_⟩
    · rw [mergeFreshness, foldlM_cons, ran]
      exact ranRest
    · simp only [mem_cons, exists_eq_or_imp, or_assoc]

/-! ## The pass over the ordered paths -/

section

variable (expandsBy : Text -> Nat -> Prop) (required : Text -> Prop)

def Expanding (path : Text) : Prop :=
  ∃ levels, 0 < levels ∧ expandsBy path levels

/-- The pass compares a required path with an expanding one: the latter starts the former, no
expanding path comes in between, and the counted levels are within the expand. -/
structure Notices (path child : Text) : Prop where
  requires : required child
  before : path < child
  starts : startsWith child path = true
  counts : ∃ levels, 0 < levels ∧ expandsBy path levels ∧ isInExpandPath child path levels = true
  adjacent : ∀ between, Expanding expandsBy between -> path < between -> ¬ between < child

end

/-- The pass after the listed paths: some required path has been noticed from each marked one. -/
structure Bubbled (merged : HashMap Text GetParams) (seen : List Text) (state : BubbleState) :
    Prop where
  refreshed : Refreshed merged state.table fun path =>
    ∃ child ∈ seen, Notices (ExpandsBy merged) (Fresh merged) path child
  last : ∀ path, state.lastRedpathWithExpand = some path ->
    path ∈ seen ∧ Expanding (ExpandsBy merged) path
  latest : ∀ path ∈ seen, Expanding (ExpandsBy merged) path ->
    ∃ last, state.lastRedpathWithExpand = some last ∧ path <= last

variable {table : HashMap Text GetParams}

lemma ExpandsBy.unique {levels others : Nat} (first : ExpandsBy table path levels)
    (second : ExpandsBy table path others) : levels = others := by
  rcases first with ⟨params, expand, found, has, rfl⟩
  rcases second with ⟨params', expand', found', has', rfl⟩
  rw [found] at found'
  cases found'
  rw [has] at has'
  cases has'
  rfl

lemma mem_orderedKeys : path ∈ orderedKeys table ↔ (table.lookup path).isSome = true := by
  rw [orderedKeys, mem_insertionSort, HashMap.lookup_isSome]

lemma orderedKeys_ascending (table : HashMap Text GetParams) :
    (orderedKeys table).Pairwise (· < ·) := by
  have ordered : (orderedKeys table).Pairwise (· <= ·) := pairwise_insertionSort _ _
  have distinct : (orderedKeys table).Pairwise (· ≠ ·) :=
    (perm_insertionSort _ _).nodup_iff.mpr table.distinct
  exact (ordered.and distinct).imp fun both => lt_of_le_of_ne both.1 both.2

section

variable {merged : HashMap Text GetParams} {seen rest : List Text} {path : Text}
  {state : BubbleState} (ordered : orderedKeys merged = seen ++ path :: rest)

include ordered

lemma mem_seen_iff {other : Text} :
    other ∈ seen ↔ other < path ∧ (merged.lookup other).isSome = true := by
  have ascending := orderedKeys_ascending merged
  rw [<- mem_orderedKeys]
  rw [ordered] at ascending ⊢
  rcases pairwise_append.mp ascending with ⟨-, later, before⟩
  rcases pairwise_cons.mp later with ⟨after, -⟩
  constructor
  · intro inside
    exact ⟨before other inside path (.head _), mem_append_left _ inside⟩
  · rintro ⟨less, member⟩
    rcases mem_append.mp member with inside | inside
    · exact inside
    · rcases mem_cons.mp inside with rfl | inside
      · exact (lt_irrefl _ less).elim
      · exact (lt_asymm less (after other inside)).elim

section

variable (bubbled : Bubbled merged seen state)

include bubbled

/-- The path that is visited has not been changed before. -/
lemma Bubbled.lookup_next :
    ∃ params, merged.lookup path = some params ∧ state.table.lookup path = some params := by
  have present : (merged.lookup path).isSome = true := by
    rw [<- mem_orderedKeys, ordered]
    exact mem_append_right _ (.head _)
  rcases Option.isSome_iff_exists.mp present with ⟨params, found⟩
  refine ⟨params, found, ?_⟩
  rw [bubbled.refreshed.kept path, found]
  rintro ⟨child, inside, notices⟩
  exact lt_asymm notices.before ((mem_seen_iff ordered).mp inside).1

lemma Bubbled.last_of_notices {other : Text}
    (notices : Notices (ExpandsBy merged) (Fresh merged) other path) :
    state.lastRedpathWithExpand = some other := by
  rcases notices.counts with ⟨levels, positive, expands, -⟩
  have present : (merged.lookup other).isSome = true := by
    rcases expands with ⟨params, expand, found, -⟩
    exact Option.isSome_iff_exists.mpr ⟨params, found⟩
  have inside : other ∈ seen := (mem_seen_iff ordered).mpr ⟨notices.before, present⟩
  rcases bubbled.latest other inside ⟨levels, positive, expands⟩ with ⟨last, remembered, upper⟩
  rcases bubbled.last last remembered with ⟨lastInside, lastExpanding⟩
  have notLater : ¬ other < last := fun later =>
    notices.adjacent last lastExpanding later ((mem_seen_iff ordered).mp lastInside).1
  rw [remembered, le_antisymm upper (not_lt.mp notLater)]

lemma Bubbled.notices_of_bubblesUp {last : Text}
    {params lastParams : GetParams} (remembered : state.lastRedpathWithExpand = some last)
    (found : merged.lookup path = some params)
    (foundLast : state.table.lookup last = some lastParams)
    (fires : bubblesUp path params last lastParams = true) :
    Notices (ExpandsBy merged) (Fresh merged) last path := by
  simp only [bubblesUp, Bool.and_eq_true, beq_iff_eq, Option.any_eq_true] at fires
  rcases fires with ⟨⟨⟨required, starts⟩, expand, has, inPath⟩, -⟩
  rcases bubbled.last last remembered with ⟨inside, levels, positive, expands⟩
  have same : expand.levels = levels :=
    (bubbled.refreshed.expandsBy_iff.mp ⟨lastParams, expand, foundLast, has, rfl⟩).unique expands
  refine ⟨⟨params, found, required⟩, ((mem_seen_iff ordered).mp inside).1, starts,
    ⟨levels, positive, expands, same ▸ inPath⟩, ?_⟩
  intro between expanding later earlier
  have present : (merged.lookup between).isSome = true := by
    rcases expanding with ⟨_, -, params, expand, found, -⟩
    exact Option.isSome_iff_exists.mpr ⟨params, found⟩
  rcases bubbled.latest between ((mem_seen_iff ordered).mpr ⟨earlier, present⟩) expanding with
    ⟨other, rememberedOther, upper⟩
  rw [remembered] at rememberedOther
  cases rememberedOther
  exact not_lt.mpr upper later

lemma Bubbled.bubbleTable_refreshed {params : GetParams}
    (found : merged.lookup path = some params) :
    Refreshed merged (bubbleTable state path params) fun other =>
      ∃ child ∈ seen ++ [path], Notices (ExpandsBy merged) (Fresh merged) other child := by
  by_cases noticed : ∃ last, Notices (ExpandsBy merged) (Fresh merged) last path
  · rcases noticed with ⟨last, notices⟩
    have remembered := bubbled.last_of_notices ordered notices
    have marks : Refreshed merged (bubbleTable state path params) fun other =>
        (∃ child ∈ seen, Notices (ExpandsBy merged) (Fresh merged) other child) ∨ other = last := by
      rcases notices.counts with ⟨levels, -, expands, inPath⟩
      rcases bubbled.refreshed.expandsBy_iff.mpr expands with
        ⟨lastParams, expand, foundLast, has, rfl⟩
      rcases notices.requires with ⟨params', found', required⟩
      rw [found] at found'
      cases found'
      simp only [bubbleTable, remembered, foundLast, Option.any_some, bubblesUp, required,
        notices.starts, has, inPath]
      cases current : lastParams.freshness with
      | optional => exact bubbled.refreshed.requireFresh last
      | required => exact bubbled.refreshed.already ⟨lastParams, foundLast, current⟩
    refine marks.congr fun other => ⟨?_, ?_⟩
    · rintro (⟨child, inside, noticesChild⟩ | rfl)
      · exact ⟨child, mem_append_left _ inside, noticesChild⟩
      · exact ⟨path, mem_append_right _ (.head _), notices⟩
    · rintro ⟨child, inside, noticesChild⟩
      rcases mem_append.mp inside with inside | inside
      · exact .inl ⟨child, inside, noticesChild⟩
      · rcases mem_singleton.mp inside with rfl
        have rememberedOther := bubbled.last_of_notices ordered noticesChild
        rw [remembered] at rememberedOther
        exact .inr (Option.some.inj rememberedOther).symm
  · have unchanged : bubbleTable state path params = state.table := by
      unfold bubbleTable
      cases remembered : state.lastRedpathWithExpand with
      | none => rfl
      | some last =>
        apply if_neg
        intro fires
        rcases (Option.any_eq_true_iff_get _ _).mp fires with ⟨present, fires⟩
        exact noticed ⟨last, bubbled.notices_of_bubblesUp ordered remembered found
          (Option.some_get present).symm fires⟩
    rw [unchanged]
    refine bubbled.refreshed.congr fun other => ⟨?_, ?_⟩
    · rintro ⟨child, inside, noticesChild⟩
      exact ⟨child, mem_append_left _ inside, noticesChild⟩
    · rintro ⟨child, inside, noticesChild⟩
      rcases mem_append.mp inside with inside | inside
      · exact ⟨child, inside, noticesChild⟩
      · rcases mem_singleton.mp inside with rfl
        exact (noticed ⟨other, noticesChild⟩).elim

lemma Bubbled.step : Bubbled merged (seen ++ [path]) (bubbleStep state path) := by
  rcases bubbled.lookup_next ordered with ⟨params, found, foundNow⟩
  have expanding : Expanding (ExpandsBy merged) path ↔
      params.expand.any (fun expand => 0 < expand.levels) = true := by
    simp only [Option.any_eq_true, decide_eq_true_eq]
    constructor
    · rintro ⟨levels, positive, params', expand, found', has, rfl⟩
      rw [found] at found'
      cases found'
      exact ⟨expand, has, positive⟩
    · rintro ⟨expand, has, positive⟩
      exact ⟨expand.levels, positive, params, expand, found, has, rfl⟩
  simp only [bubbleStep, foundNow]
  refine ⟨bubbled.bubbleTable_refreshed ordered found, ?_, ?_⟩
  · intro other remembered
    by_cases expands : params.expand.any (fun expand => 0 < expand.levels) = true
    · rw [if_pos expands] at remembered
      cases remembered
      exact ⟨mem_append_right _ (.head _), expanding.mpr expands⟩
    · rw [if_neg expands] at remembered
      rcases bubbled.last other remembered with ⟨inside, otherExpanding⟩
      exact ⟨mem_append_left _ inside, otherExpanding⟩
  · intro other inside otherExpanding
    have cases_ : other ∈ seen ∨ other = path := by simpa using inside
    by_cases expands : params.expand.any (fun expand => 0 < expand.levels) = true
    · refine ⟨path, if_pos expands, ?_⟩
      rcases cases_ with inside | rfl
      · exact le_of_lt ((mem_seen_iff ordered).mp inside).1
      · exact le_refl other
    · rcases cases_ with inside | rfl
      · rcases bubbled.latest other inside otherExpanding with ⟨last, remembered, upper⟩
        exact ⟨last, by rw [if_neg expands, remembered], upper⟩
      · exact (expands (expanding.mp otherExpanding)).elim

end

end

variable {merged : HashMap Text GetParams}

lemma bubbled_foldl (paths : List Text) :
    ∀ {seen : List Text} {state : BubbleState}, orderedKeys merged = seen ++ paths ->
      Bubbled merged seen state -> Bubbled merged (seen ++ paths) (paths.foldl bubbleStep state) := by
  induction paths with
  | nil =>
    intro seen state _ bubbled
    rw [append_nil]
    exact bubbled
  | cons path rest ih =>
    intro seen state ordered bubbled
    have stepped := ih (by simpa using ordered) (bubbled.step ordered)
    rw [append_assoc] at stepped
    exact stepped

/-- After the pass exactly those paths are fresh that were fresh before or have noticed
a fresh one. -/
lemma fresh_bubbled : Fresh ((orderedKeys merged).foldl bubbleStep ⟨merged, none⟩).table path ↔
      Fresh merged path ∨ ∃ child, Notices (ExpandsBy merged) (Fresh merged) path child := by
  have start : Bubbled merged [] ⟨merged, none⟩ :=
    ⟨(Refreshed.nothing merged).congr (by simp), nofun, nofun⟩
  have bubbled := bubbled_foldl (orderedKeys merged) rfl start
  rw [bubbled.refreshed.fresh_iff]
  refine or_congr_right ⟨?_, ?_⟩
  · rintro ⟨child, -, notices⟩
    exact ⟨child, notices⟩
  · rintro ⟨child, notices⟩
    rcases notices.requires with ⟨params, found, required⟩
    have present := mem_orderedKeys.mpr (Option.isSome_iff_exists.mpr ⟨params, found⟩)
    exact ⟨child, present, notices⟩

/-! ## What the table says about the rules and the query -/

lemma RequiredAt.perm (order : IterationOrder (List Text)) (sequences : List (List Text)) :
    RequiredAt rules query (order.iterate sequences) = RequiredAt rules query sequences := by
  funext path
  simp only [RequiredAt, order.mem_iterate]

/-- The paths that `CombineQueryParams` makes fresh, in terms of its arguments. -/
lemma fresh_combineQueryParams (rules : HashMap Text GetParams) (order : IterationOrder (List Text))
    {sequences : List (List Text)} (known : ∀ sequence ∈ sequences, ∀ subqueryId ∈ sequence,
      (findSubquery query subqueryId).isSome = true) :
    ∃ table, combineQueryParams order query rules sequences = some table ∧
      ∀ path, Fresh table path ↔ RequiredAt rules query sequences path ∨
        ∃ child, Notices (ExpandsBy rules) (RequiredAt rules query sequences) path child := by
  rcases mergeFreshness_refreshed (order.iterate sequences)
    (fun sequence inside => known sequence (order.mem_iterate.mp inside))
    (.nothing rules) with ⟨merged, ran, refreshed⟩
  have expands : ExpandsBy merged = ExpandsBy rules := by
    funext path levels
    exact propext refreshed.expandsBy_iff
  have fresh : Fresh merged = RequiredAt rules query sequences := by
    rw [<- RequiredAt.perm order]
    funext path
    rw [refreshed.fresh_iff, false_or]
    rfl
  refine ⟨((orderedKeys merged).foldl bubbleStep ⟨merged, none⟩).table, ?_, ?_⟩
  · rw [combineQueryParams, ran, Option.map_some]
  · intro path
    rw [fresh_bubbled, expands, fresh]

/-! ## Freshness through expands -/

/-- Where a scan of a path stands. -/
inductive StepPart where
  | boundary
  | name
  | predicate

def stepDistanceFrom : StepPart -> Text -> Nat
  | _, [] => 0
  | .predicate, c :: rest =>
    if c = ']' then stepDistanceFrom .boundary rest else stepDistanceFrom .predicate rest
  | .boundary, c :: rest =>
    if c = '/' then stepDistanceFrom .boundary rest
    else if c = '[' then stepDistanceFrom .predicate rest + 1
    else stepDistanceFrom .name rest + 1
  | .name, c :: rest =>
    if c = '/' then stepDistanceFrom .boundary rest
    else if c = '[' then stepDistanceFrom .predicate rest + 1
    else stepDistanceFrom .name rest

/-- One for every node name and one for every predicate of a path. -/
def stepDistance (rest : Text) : Nat :=
  stepDistanceFrom .boundary rest

/-- A path ends where a step ends. -/
def AtBoundary (path rest : Text) : Prop :=
  rest.head? = some '/' ∨ rest.head? = some '[' ∨ path.getLast? = some '/'

/-- A proper descendant of a path within a number of steps. -/
def Descends (path child : Text) (levels : Nat) : Prop :=
  ∃ rest, child = path ++ rest ∧ AtBoundary path rest ∧ 0 < stepDistance rest ∧
    stepDistance rest <= levels

/-- A path with an expand is fresh exactly if it was required itself or a path within
its expand was. -/
def Bubbles (rules : HashMap Text GetParams) (query : DelliciusQuery)
    (sequences : List (List Text)) (table : HashMap Text GetParams) : Prop :=
  ∀ path levels, ExpandsBy rules path levels ->
    (Fresh table path ↔ RequiredAt rules query sequences path ∨
      ∃ child, RequiredAt rules query sequences child ∧ Descends path child levels)

/-- The order of the texts and the regular expression do not mislead the pass at a path. -/
structure ReadsRight (rules : HashMap Text GetParams) (query : DelliciusQuery)
    (sequences : List (List Text)) (path : Text) (levels : Nat) : Prop where
  /-- If a required path is within the expand, some required path starts with this one, counts few
  enough levels, and has no expanding path in between. -/
  notices : ∀ child, RequiredAt rules query sequences child -> Descends path child levels ->
    ∃ other, Notices (ExpandsBy rules) (RequiredAt rules query sequences) path other
  /-- If there is such a text, some required path is within the expand. -/
  descends : ∀ child,
    Notices (ExpandsBy rules) (RequiredAt rules query sequences) path child ->
    ∃ other, RequiredAt rules query sequences other ∧ Descends path other levels

/-- For all rules, every query and every order of iteration, `CombineQueryParams` ends with a table.
Requirements bubble up exactly if the order of the texts and the regular expression do not mislead
the pass at any expanding path that is not required itself. -/
theorem combineQueryParams_bubbles_iff (rules : HashMap Text GetParams) (query : DelliciusQuery)
    (order : IterationOrder Text) (sequenceOrder : IterationOrder (List Text)) {bound : Nat}
    (enough : (buildParentChildSubqueryMap query).length < bound) {sequences : List (List Text)}
    (joined : joinSubqueries order bound query = some (.okStatus, sequences)) :
    ∃ table, combineQueryParams sequenceOrder query rules sequences = some table ∧
      (Bubbles rules query sequences table ↔
        ∀ path levels, ExpandsBy rules path levels ->
          ¬ RequiredAt rules query sequences path ->
          ReadsRight rules query sequences path levels) := by
  rcases joinSubqueries_joins query order enough with ⟨status, chains, ran, joins⟩
  rw [joined] at ran
  cases ran
  have known : ∀ sequence ∈ sequences, ∀ subqueryId ∈ sequence,
      (findSubquery query subqueryId).isSome = true :=
    fun sequence inside subqueryId member =>
      findSubquery_of_rooted (((joins.mem_iff rfl sequence).mp inside).rooted member)
  rcases fresh_combineQueryParams rules sequenceOrder known with ⟨table, combined, fresh⟩
  refine ⟨table, combined, ?_, ?_⟩
  · intro bubbles path levels expands optional
    have agree := bubbles path levels expands
    rw [fresh, or_iff_right optional, or_iff_right optional] at agree
    exact ⟨fun child required descends => agree.mpr ⟨child, required, descends⟩,
      fun child notices => agree.mp ⟨child, notices⟩⟩
  · intro right path levels expands
    rw [fresh]
    by_cases required : RequiredAt rules query sequences path
    · simp only [required, true_or]
    · rw [or_iff_right required, or_iff_right required]
      have reads := right path levels expands required
      constructor
      · rintro ⟨child, notices⟩
        exact reads.descends child notices
      · rintro ⟨child, requiredChild, descends⟩
        exact reads.notices child requiredChild descends

def sensorsSubquery : Subquery :=
  { Subquery.empty with
    subqueryId := text "Sensors"
    resource := .redpath (text "/Chassis[Id=1]/Sensors")
    freshness := .required }

def sensorsQuery : DelliciusQuery :=
  ⟨text "query", [sensorsSubquery], none⟩

/-- The parameters of a rule with an expand. -/
def expandParams (levels : Nat) : GetParams := { expand := some ⟨.both, levels⟩ }

def chassisRules : HashMap Text GetParams :=
  ⟨[(text "/Chassis[*]", expandParams 2)], by decide⟩

/-- Rules that expand the memory of a chassis too. -/
def memoryRules : HashMap Text GetParams :=
  ⟨[(text "/Chassis[*]", expandParams 2), (text "/Chassis[*]/Memory", expandParams 1)], by decide⟩

lemma joinSubqueries_sensorsQuery :
    joinSubqueries (.listed Text) 1 sensorsQuery = some (.okStatus, [[text "Sensors"]]) := by
  decide

lemma requiredAt_sensorsQuery (optional : ∀ path, ¬ Fresh rules path) :
    RequiredAt rules sensorsQuery [[text "Sensors"]] path ↔ path = text "/Chassis[*]/Sensors" := by
  have nothing : ¬ AsksFresh sensorsQuery (text "/Chassis[*]/Sensors") [] path := by
    rintro ⟨earlier, subqueryId, later, subquery, split, -⟩
    simp at split
  have found : findSubquery sensorsQuery (text "Sensors") = some sensorsSubquery := by decide
  have extended : extendPrefix [] sensorsSubquery = text "/Chassis[*]/Sensors" := by decide
  have target : targetPrefix (text "/Chassis[*]/Sensors") sensorsSubquery =
      text "/Chassis[*]/Sensors" := rfl
  have required : sensorsSubquery.freshness = .required := rfl
  simp only [RequiredAt, optional, false_or, mem_singleton, exists_eq_left,
    asksFresh_cons found, extended, nothing, required, or_false, true_and]
  exact eq_comm

lemma descends_sensors : Descends (text "/Chassis[*]") (text "/Chassis[*]/Sensors") 2 :=
  ⟨text "/Sensors", by decide, .inl rfl, by decide, by decide⟩

lemma chassisRules_optional (path : Text) : ¬ Fresh chassisRules path := by
  rintro ⟨params, found, required⟩
  simp only [HashMap.lookup, chassisRules, lookup_cons] at found
  split at found
  · cases found
    cases required
  · cases found

lemma expandsBy_chassisRules {levels : Nat}
    (expands : ExpandsBy chassisRules path levels) : path = text "/Chassis[*]" ∧ levels = 2 := by
  rcases expands with ⟨params, expand, found, has, rfl⟩
  simp only [HashMap.lookup, chassisRules, lookup_cons] at found
  split at found
  · cases found
    cases has
    exact ⟨eq_of_beq ‹_›, rfl⟩
  · cases found

/-- With one expand in the rules, the sensors make the chassis fresh. -/
theorem combineQueryParams_bubbles_chassisRules :
    (buildParentChildSubqueryMap sensorsQuery).length < 1 ∧
    joinSubqueries (.listed Text) 1 sensorsQuery = some (.okStatus, [[text "Sensors"]]) ∧
    ∃ table,
      combineQueryParams (.listed _) sensorsQuery chassisRules [[text "Sensors"]] = some table ∧
      Bubbles chassisRules sensorsQuery [[text "Sensors"]] table := by
  have enough : (buildParentChildSubqueryMap sensorsQuery).length < 1 := by decide
  refine ⟨enough, joinSubqueries_sensorsQuery, ?_⟩
  rcases combineQueryParams_bubbles_iff chassisRules sensorsQuery (.listed Text) (.listed _) enough
    joinSubqueries_sensorsQuery with ⟨table, combined, bubblesIff⟩
  refine ⟨table, combined, bubblesIff.mpr ?_⟩
  intro path levels expands _
  rcases expandsBy_chassisRules expands with ⟨rfl, rfl⟩
  have required := (requiredAt_sensorsQuery chassisRules_optional).mpr rfl
  refine ⟨fun _ _ _ => ⟨text "/Chassis[*]/Sensors", required, by decide, by decide,
    ⟨2, by decide, expands, by decide⟩, ?_⟩, fun _ _ => ⟨_, required, descends_sensors⟩⟩
  rintro between ⟨others, -, otherExpands⟩ later
  rw [(expandsBy_chassisRules otherExpands).1] at later
  exact (lt_irrefl _ later).elim

/-- An expand of the memory hides the sensors from the chassis. -/
theorem combineQueryParams_forgets_chassis :
    ∃ table,
      combineQueryParams (.listed _) sensorsQuery memoryRules [[text "Sensors"]] = some table ∧
      ¬ Bubbles memoryRules sensorsQuery [[text "Sensors"]] table := by
  have kept : (combineQueryParams (.listed _) sensorsQuery memoryRules [[text "Sensors"]]).bind
      (fun table => table.lookup (text "/Chassis[*]")) = some (expandParams 2) := by decide
  rcases Option.bind_eq_some_iff.mp kept with ⟨table, combined, kept⟩
  refine ⟨table, combined, fun bubbles => ?_⟩
  have expands : ExpandsBy memoryRules (text "/Chassis[*]") 2 := ⟨_, _, rfl, rfl, rfl⟩
  have required : RequiredAt memoryRules sensorsQuery [[text "Sensors"]]
      (text "/Chassis[*]/Sensors") :=
    .inr ⟨_, List.mem_singleton_self _, [], text "Sensors", [], sensorsSubquery, rfl, by decide,
      rfl, by decide⟩
  rcases (bubbles _ _ expands).mpr (.inr ⟨_, required, descends_sensors⟩) with
    ⟨params, found, fresh⟩
  rw [kept] at found
  cases found
  cases fresh

end Ecclesia.Planner
