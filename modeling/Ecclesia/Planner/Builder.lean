import Ecclesia.Library.PrefixTree
import Ecclesia.Query.Join
import Ecclesia.Planner.Context

namespace Ecclesia.Planner

open Absl Query List
open Option (bind_none bind_some isSome_iff_exists map_some)

/-!
# Building the RedPath trie

`RedPathTrieBuilder` joins the subqueries of a query into sequences and inserts
the RedPath expressions of each sequence into a trie.  Sequences share the nodes
of the parts they have in common.  Where the path of a subquery ends, its id is
written into the node, and a second id at the same node is an error.

The definitions follow `redpath_trie.cc`.  The nodes are kept with the pointers of
the source, as addresses in an arena; a hash set of expressions is listed in the
order of insertion.
-/

/-! ## The program -/

/-- The members of `RedPathExpression` that its equality and its hash use. -/
structure Expression where
  type : ExpressionType
  expression : Text
deriving DecidableEq

/-- The nodes of a trie. The mark of a node is the id of the subquery that ends there. -/
abbrev Trie := Arena Expression Text

/-- `std::make_unique<RedPathTrieNode>()` -/
def emptyTrie : Trie := [⟨[], [], []⟩]

/-- `InsertRedPathExpressions`: a node is created for an expression that the current
node does not have yet. -/
def insertRedPathExpressions (position : Trie × Nat) (redpathExpressions : List Expression) :
    Trie × Nat :=
  redpathExpressions.foldl (Arena.descend []) position

/-- The characters of a node name in the regular expression of `redpath_trie.cc`. -/
def isTrieNameCharacter (c : Char) : Bool :=
  asciiIsAlnum c || c == '.' || c == '_'

/-- A step that is complete; empty ones are left out. -/
def pushStep (redpathSteps : List Text) (step : Text) : List Text :=
  if step.isEmpty then redpathSteps else redpathSteps ++ [step]

/-- The loop over the characters of a RedPath, with the open brackets and the steps. -/
def splitSteps (redpath : Text) : Nat -> List Text -> Text -> Text -> StatusOr (List Text)
  | bracketDepth, redpathSteps, step, [] =>
    if bracketDepth != 0 then
      .error (.invalidArgument (text "Mismatched brackets in RedPath: " ++ redpath))
    else .ok (pushStep redpathSteps step)
  | bracketDepth, redpathSteps, step, c :: rest =>
    if c == '[' then
      if 0 < bracketDepth then
        .error (.invalidArgument (text "Nested brackets in RedPath: " ++ redpath))
      else splitSteps redpath (bracketDepth + 1) redpathSteps (step ++ [c]) rest
    else if c == ']' then
      if bracketDepth = 0 then
        .error (.invalidArgument (text "Mismatched brackets in RedPath: " ++ redpath))
      else splitSteps redpath (bracketDepth - 1) redpathSteps (step ++ [c]) rest
    else if c == '/' && bracketDepth == 0 then
      splitSteps redpath bracketDepth (pushStep redpathSteps step) [] rest
    else splitSteps redpath bracketDepth redpathSteps (step ++ [c]) rest

/-- The loop over the steps. -/
def stepExpressions (type : ExpressionType) : List Text -> StatusOr (List Expression)
  | [] => .ok []
  | redpathStep :: rest =>
    match matchLocationStep isTrieNameCharacter redpathStep with
    | none => .error (.invalidArgument (text "Invalid redpath step: " ++ redpathStep))
    | some (nodeName, predicate) =>
      (stepExpressions type rest).map fun later =>
        ⟨type, nodeName⟩ :: (if predicate.isEmpty then later else ⟨.predicate, predicate⟩ :: later)

def splitRedPath (redpath : Text) (type : ExpressionType) : StatusOr (List Expression) :=
  (splitSteps redpath 0 [] [] redpath).bind (stepExpressions type)

/-- The expressions of a subquery.  A subquery without a resource has none. -/
def subqueryExpressions (subquery : Subquery) : StatusOr (List Expression) :=
  match subquery.resource with
  | .redpath redpath => splitRedPath redpath .nodeName
  | .uriReferenceRedpath redpath =>
    .ok [⟨.nodeNameJsonPointer, strReplaceAll redpath [(text "/", text ".")]⟩]
  | .uri uri => .ok [⟨.nodeNameUriPointer, uri⟩]
  | .notSet => .ok []

/-- `ProcessSubquerySequence` from the current node on; none if an invalid pointer is followed. -/
def processSubquerySequence (query : DelliciusQuery) :
    List Text -> Trie × Nat -> Option (StatusOr Trie)
  | [], position => some (.ok position.1)
  | subqueryId :: rest, position =>
    match findSubquery query subqueryId with
    | none => none
    | some subquery =>
      match subqueryExpressions subquery with
      | .error status => some (.error status)
      | .ok redpathExpressions =>
        let inserted := insertRedPathExpressions position redpathExpressions
        match inserted.1[inserted.2]? with
        | none => none
        | some node =>
          if !node.mark.isEmpty && node.mark != subqueryId then
            some (.error (.invalidArgument
              (text "Same RedPath found in multiple subqueries. Check subqueries " ++
                node.mark ++ text " and " ++ subqueryId)))
          else
            processSubquerySequence query rest
              (inserted.1.setMark inserted.2 subqueryId, inserted.2)

/-- The loop over the sequences, each from the root node on. -/
def processSubquerySequences (query : DelliciusQuery) :
    List (List Text) -> Trie -> Option (StatusOr Trie)
  | [], trie => some (.ok trie)
  | sequence :: rest, trie =>
    match processSubquerySequence query sequence (trie, 0) with
    | none => none
    | some (.error status) => some (.error status)
    | some (.ok after) => processSubquerySequences query rest after

def createRedPathTrie (order : IterationOrder Text) (sequenceOrder : IterationOrder (List Text))
    (bound : Nat) (query : DelliciusQuery) : Option (StatusOr Trie) :=
  match joinSubqueries order bound query with
  | none => none
  | some (status, subquerySequences) =>
    if !status.isOk then some (.error status)
    else processSubquerySequences query (sequenceOrder.iterate subquerySequences) emptyTrie

/-! ## Paths of subqueries -/

/-- The expressions of a subquery, which are those of its RedPath. -/
def expressionsOf (query : DelliciusQuery) (subqueryId : Text) : StatusOr (List Expression) :=
  ((findSubquery query subqueryId).map subqueryExpressions).getD (.ok [])

/-- The expressions of the subqueries of a sequence, one after another. -/
def spelledPath (query : DelliciusQuery) (sequence : List Text) : List Expression :=
  sequence.flatMap fun subqueryId => (expressionsOf query subqueryId).toOption.getD []

/-- Every RedPath of the sequence splits into expressions. -/
def Splits (query : DelliciusQuery) (sequence : List Text) : Prop :=
  ∀ subqueryId ∈ sequence, (expressionsOf query subqueryId).isOk = true

/-- A part of the sequence ends in a subquery, below a path, and spells a path. -/
def EndsIn (query : DelliciusQuery) (above : List Expression) (sequence : List Text)
    (subqueryId : Text) (path : List Expression) : Prop :=
  ∃ earlier later, sequence = earlier ++ subqueryId :: later ∧
    path = above ++ spelledPath query (earlier ++ [subqueryId])

def EndsAt (query : DelliciusQuery) (sequences : List (List Text)) (subqueryId : Text)
    (path : List Expression) : Prop :=
  ∃ sequence ∈ sequences, EndsIn query [] sequence subqueryId path

/-- No two subqueries end at the same path. -/
def Unambiguous (ends : Text -> List Expression -> Prop) : Prop :=
  ∀ first second path, ends first path -> ends second path -> first = second

variable {ends : Text -> List Expression -> Prop}

lemma Unambiguous.of_imp {more : Text -> List Expression -> Prop} (unambiguous : Unambiguous more)
    (fewer : ∀ subqueryId path, ends subqueryId path -> more subqueryId path) : Unambiguous ends :=
  fun first second path endsFirst endsSecond =>
    unambiguous first second path (fewer first path endsFirst) (fewer second path endsSecond)

variable {query : DelliciusQuery} {subqueryId : Text} {path : List Expression}

variable {above : List Expression}

lemma endsIn_cons {other : Text} {rest : List Text}
    {expressions : List Expression} (found : expressionsOf query subqueryId = .ok expressions) :
    EndsIn query above (subqueryId :: rest) other path ↔
      (other = subqueryId ∧ path = above ++ expressions) ∨
        EndsIn query (above ++ expressions) rest other path := by
  have spelled : ∀ sequence, spelledPath query (subqueryId :: sequence) =
      expressions ++ spelledPath query sequence := by
    intro sequence
    rw [spelledPath, flatMap_cons, found]
    rfl
  constructor
  · rintro ⟨earlier, later, split, rfl⟩
    cases earlier with
    | nil =>
      cases split
      refine .inl ⟨rfl, ?_⟩
      rw [nil_append, spelled]
      simp [spelledPath]
    | cons first earlier =>
      cases split
      refine .inr ⟨earlier, later, rfl, ?_⟩
      rw [cons_append, spelled, append_assoc]
  · rintro (⟨rfl, rfl⟩ | ⟨earlier, later, rfl, rfl⟩)
    · refine ⟨[], rest, rfl, ?_⟩
      rw [nil_append, spelled]
      simp [spelledPath]
    · refine ⟨subqueryId :: earlier, later, rfl, ?_⟩
      rw [cons_append, spelled, append_assoc]

lemma not_endsIn_nil : ¬ EndsIn query above [] subqueryId path := by
  rintro ⟨earlier, later, split, -⟩
  simp at split

lemma splits_cons {rest : List Text} :
    Splits query (subqueryId :: rest) ↔
      (expressionsOf query subqueryId).isOk = true ∧ Splits query rest :=
  forall_mem_cons

/-! ## Errors -/

lemma splitSteps_error {redpath : Text} (rest : Text) :
    ∀ {bracketDepth : Nat} {redpathSteps : List Text} {step : Text} {status : Status},
      splitSteps redpath bracketDepth redpathSteps step rest = .error status ->
      status.code = .invalidArgument := by
  induction rest with
  | nil =>
    intro bracketDepth redpathSteps step status failed
    rw [splitSteps] at failed
    split at failed
    · cases failed
      rfl
    · cases failed
  | cons c rest ih =>
    intro bracketDepth redpathSteps step status failed
    rw [splitSteps] at failed
    split at failed
    · split at failed
      · cases failed
        rfl
      · exact ih failed
    · split at failed
      · split at failed
        · cases failed
          rfl
        · exact ih failed
      · split at failed
        · exact ih failed
        · exact ih failed

lemma stepExpressions_error {type : ExpressionType} (steps : List Text) :
    ∀ {status : Status}, stepExpressions type steps = .error status ->
      status.code = .invalidArgument := by
  induction steps with
  | nil => exact nofun
  | cons step rest ih =>
    intro status failed
    rw [stepExpressions] at failed
    split at failed
    · cases failed
      rfl
    · cases later : stepExpressions type rest with
      | ok expressions =>
        rw [later] at failed
        cases failed
      | error status =>
        rw [later] at failed
        cases failed
        exact ih later

variable {subquery : Subquery} {status : Status}

lemma subqueryExpressions_error
    (failed : subqueryExpressions subquery = .error status) : status.code = .invalidArgument := by
  unfold subqueryExpressions at failed
  split at failed
  · rw [splitRedPath] at failed
    cases steps : splitSteps _ 0 [] [] _ with
    | ok redpathSteps =>
      rw [steps] at failed
      exact stepExpressions_error redpathSteps failed
    | error status =>
      rw [steps] at failed
      cases failed
      exact splitSteps_error _ steps
  · cases failed
  · cases failed
  · cases failed

/-! ## What the trie holds -/

/-- The nodes and ids of the trie are those on the way to where subqueries end. -/
structure Holds (trie : Trie) (words : List (List Expression)) (ids : List Expression -> Text)
    (ends : Text -> List Expression -> Prop) : Prop where
  represents : trie.Represents [] words ids
  mem_iff : ∀ path, path ∈ words ↔
    path = [] ∨ ∃ subqueryId whole, ends subqueryId whole ∧ path <+: whole
  id_iff : ∀ subqueryId path, subqueryId ≠ [] -> (ids path = subqueryId ↔ ends subqueryId path)
  named : ∀ subqueryId path, ends subqueryId path -> subqueryId ≠ []

namespace Holds

variable {trie : Trie} {words : List (List Expression)} {ids : List Expression -> Text}
  {ends : Text -> List Expression -> Prop}

lemma empty : Holds emptyTrie [[]] (fun _ => []) fun _ _ => False where
  represents := Arena.represents_root []
  mem_iff path := by simp
  id_iff subqueryId path named := by
    refine ⟨fun same => named same.symm, False.elim⟩
  named _ _ impossible := impossible.elim

section

variable (holds : Holds trie words ids ends)

include holds

lemma congr {others : Text -> List Expression -> Prop}
    (same : ∀ subqueryId path, ends subqueryId path ↔ others subqueryId path) :
    Holds trie words ids others := by
  have equal : ends = others := by
    funext subqueryId path
    exact propext (same subqueryId path)
  exact equal ▸ holds

lemma unambiguous : Unambiguous ends := by
  intro first second path endsFirst endsSecond
  have one := (holds.id_iff first path (holds.named first path endsFirst)).mpr endsFirst
  have two := (holds.id_iff second path (holds.named second path endsSecond)).mpr endsSecond
  exact one.symm.trans two

lemma insert {current : Nat}
    (spelled : words[current]? = some above) (expressions : List Expression) :
    ∃ node, (insertRedPathExpressions (trie, current) expressions).1[
        (insertRedPathExpressions (trie, current) expressions).2]? = some node ∧
      (node.mark ≠ [] -> ends node.mark (above ++ expressions)) ∧
      ∀ subqueryId, subqueryId ≠ [] -> (node.mark = [] ∨ node.mark = subqueryId) ->
        ∃ after newIds,
          after[(insertRedPathExpressions (trie, current) expressions).2]? =
            some (above ++ expressions) ∧
          Holds ((insertRedPathExpressions (trie, current) expressions).1.setMark
            (insertRedPathExpressions (trie, current) expressions).2 subqueryId) after newIds
            fun other path => ends other path ∨ (other = subqueryId ∧ path = above ++ expressions) := by
  rcases holds.represents.foldl_descend expressions spelled with
    ⟨after, represents, spelledAfter, memAfter⟩
  rcases represents.node_of_word spelledAfter with ⟨node, found⟩
  have isMark : node.mark = ids (above ++ expressions) := represents.marked found spelledAfter
  refine ⟨node, found, ?_, ?_⟩
  · intro marked
    exact (holds.id_iff node.mark _ marked).mp isMark.symm
  · intro subqueryId named free
    refine ⟨after, _, spelledAfter, represents.setMark spelledAfter subqueryId, ?_, ?_, ?_⟩
    · intro path
      rw [memAfter]
      constructor
      · rintro (inside | ⟨part, starts, rfl⟩)
        · rcases (holds.mem_iff path).mp inside with rfl | ⟨other, whole, endsOther, starts⟩
          · exact .inl rfl
          · exact .inr ⟨other, whole, .inl endsOther, starts⟩
        · exact .inr ⟨subqueryId, _, .inr ⟨rfl, rfl⟩, (prefix_append_right_inj above).mpr starts⟩
      · rintro (rfl | ⟨other, whole, endsOther | ⟨rfl, rfl⟩, starts⟩)
        · exact .inl ((holds.mem_iff []).mpr (.inl rfl))
        · exact .inl ((holds.mem_iff path).mpr (.inr ⟨other, whole, endsOther, starts⟩))
        · rcases prefix_or_prefix_of_prefix starts (prefix_append above expressions) with
            shorter | ⟨part, rfl⟩
          · rcases shorter with ⟨rest, rfl⟩
            exact .inl (holds.represents.mem_of_append rest (mem_of_getElem? spelled))
          · exact .inr ⟨part, (prefix_append_right_inj above).mp starts, rfl⟩
    · intro other path otherNamed
      by_cases here : path = above ++ expressions
      · subst here
        rw [if_pos rfl]
        constructor
        · rintro rfl
          exact .inr ⟨rfl, rfl⟩
        · rintro (old | ⟨rfl, -⟩)
          · rw [<- holds.id_iff other _ otherNamed, <- isMark] at old
            rcases free with unmarked | same
            · exact (otherNamed (old.symm.trans unmarked)).elim
            · exact same.symm.trans old
          · rfl
      · rw [if_neg here, holds.id_iff other path otherNamed]
        exact (or_iff_left fun both => here both.2).symm
    · rintro other path (old | ⟨rfl, -⟩)
      · exact holds.named other path old
      · exact named

end

end Holds

/-- All RedPaths split and the trie holds where the subqueries end, or some RedPath does not split
or two subqueries end at one path. -/
def Builds (outcome : StatusOr Trie) (split : Prop)
    (ends : Text -> List Expression -> Prop) : Prop :=
  match outcome with
  | .ok trie => split ∧ ∃ words ids, Holds trie words ids ends
  | .error status => status.code = .invalidArgument ∧ ¬ (split ∧ Unambiguous ends)

lemma Builds.congr {outcome : StatusOr Trie} {split splits : Prop}
    {others : Text -> List Expression -> Prop} (builds : Builds outcome split ends)
    (sameSplit : split ↔ splits)
    (same : ∀ subqueryId path, ends subqueryId path ↔ others subqueryId path) :
    Builds outcome splits others := by
  have equal : ends = others := by
    funext subqueryId path
    exact propext (same subqueryId path)
  exact propext sameSplit ▸ equal ▸ builds

lemma expressionsOf_of_find (found : findSubquery query subqueryId = some subquery) :
    expressionsOf query subqueryId = subqueryExpressions subquery := by
  rw [expressionsOf, found]
  rfl

lemma processSubquerySequence_builds (sequence : List Text) (known : ∀ subqueryId ∈ sequence,
      subqueryId ≠ [] ∧ (findSubquery query subqueryId).isSome = true) :
    ∀ {trie : Trie} {words : List (List Expression)} {ids : List Expression -> Text}
      {ends : Text -> List Expression -> Prop} {current : Nat} {above : List Expression},
      Holds trie words ids ends -> words[current]? = some above ->
      ∃ outcome, processSubquerySequence query sequence (trie, current) = some outcome ∧
        Builds outcome (Splits query sequence) fun subqueryId path =>
          ends subqueryId path ∨ EndsIn query above sequence subqueryId path := by
  induction sequence with
  | nil =>
    intro trie words ids ends current above holds spelled
    refine ⟨.ok trie, rfl, nofun, words, ids, holds.congr fun subqueryId path => ?_⟩
    exact (or_iff_left not_endsIn_nil).symm
  | cons subqueryId rest ih =>
    intro trie words ids ends current above holds spelled
    rcases known subqueryId (.head _) with ⟨named, isKnown⟩
    rcases isSome_iff_exists.mp isKnown with ⟨subquery, found⟩
    have expressionsFound := expressionsOf_of_find found
    rw [processSubquerySequence]
    simp only [found]
    cases split : subqueryExpressions subquery with
    | error status =>
      refine ⟨.error status, rfl, subqueryExpressions_error split, ?_⟩
      rintro ⟨splits, -⟩
      have first := (splits_cons.mp splits).1
      rw [expressionsFound, split] at first
      cases first
    | ok expressions =>
      rw [split] at expressionsFound
      rcases holds.insert spelled expressions with ⟨node, foundNode, marked, write⟩
      simp only [foundNode, endsIn_cons expressionsFound]
      by_cases free : node.mark = [] ∨ node.mark = subqueryId
      · rw [if_neg (by simpa [imp_iff_not_or] using free)]
        rcases write subqueryId named free with ⟨after, newIds, spelledAfter, holdsAfter⟩
        rcases ih (fun other inside => known other (.tail _ inside)) holdsAfter
          spelledAfter with ⟨outcome, ran, builds⟩
        refine ⟨outcome, ran, builds.congr ?_ fun other path => or_assoc⟩
        rw [splits_cons, expressionsFound]
        exact (and_iff_right rfl).symm
      · rw [not_or] at free
        rw [if_pos (by simpa using free)]
        refine ⟨_, rfl, rfl, ?_⟩
        rintro ⟨-, unambiguous⟩
        exact free.2 (unambiguous _ _ _ (.inl (marked free.1)) (.inr (.inl ⟨rfl, rfl⟩)))

lemma endsAt_cons {sequence : List Text} {rest : List (List Text)} :
    EndsAt query (sequence :: rest) subqueryId path ↔
      EndsIn query [] sequence subqueryId path ∨ EndsAt query rest subqueryId path := by
  simp only [EndsAt, mem_cons, exists_eq_or_imp]

lemma processSubquerySequences_builds (sequences : List (List Text))
    (known : ∀ sequence ∈ sequences, ∀ subqueryId ∈ sequence,
      subqueryId ≠ [] ∧ (findSubquery query subqueryId).isSome = true) :
    ∀ {trie : Trie} {words : List (List Expression)} {ids : List Expression -> Text}
      {ends : Text -> List Expression -> Prop}, Holds trie words ids ends ->
      ∃ outcome, processSubquerySequences query sequences trie = some outcome ∧
        Builds outcome (∀ sequence ∈ sequences, Splits query sequence)
          fun subqueryId path => ends subqueryId path ∨ EndsAt query sequences subqueryId path := by
  induction sequences with
  | nil =>
    intro trie words ids ends holds
    refine ⟨.ok trie, rfl, nofun, words, ids, holds.congr fun subqueryId path => ?_⟩
    simp [EndsAt]
  | cons sequence rest ih =>
    intro trie words ids ends holds
    rcases processSubquerySequence_builds sequence (known sequence (.head _)) holds
      holds.represents.root with ⟨outcome, ran, builds⟩
    simp only [processSubquerySequences, ran, forall_mem_cons, endsAt_cons]
    cases outcome with
    | error status =>
      rcases builds with ⟨code, fault⟩
      refine ⟨.error status, rfl, code, ?_⟩
      rintro ⟨⟨splits, -⟩, unambiguous⟩
      refine fault ⟨splits, unambiguous.of_imp ?_⟩
      rintro subqueryId path (old | new)
      · exact .inl old
      · exact .inr (.inl new)
    | ok after =>
      rcases builds with ⟨splits, afterWords, afterIds, afterHolds⟩
      rcases ih (fun other inside => known other (.tail _ inside)) afterHolds with
        ⟨outcome, ranRest, buildsRest⟩
      exact ⟨outcome, ranRest, buildsRest.congr (and_iff_right splits).symm fun _ _ => or_assoc⟩

/-! ## Tries for queries -/

lemma findSubquery_isSome (member : subquery ∈ query.subquery) :
    (findSubquery query subquery.subqueryId).isSome = true := by
  rw [findSubquery, find?_isSome]
  exact ⟨subquery, mem_reverse.mpr member, by simp⟩

lemma Rooted.exists_subquery (rooted : Rooted query subqueryId) :
    ∃ subquery ∈ query.subquery, subquery.subqueryId = subqueryId := by
  rcases rooted with ⟨root, ⟨subquery, member, rfl, -⟩, reached⟩
  rcases Relation.ReflTransGen.cases_tail reached with rfl | ⟨parent, -, linked⟩
  · exact ⟨subquery, member, rfl⟩
  · rcases linked with ⟨child, childMember, rfl, -⟩
    exact ⟨child, childMember, rfl⟩

lemma findSubquery_of_rooted
    (rooted : Rooted query subqueryId) : (findSubquery query subqueryId).isSome = true := by
  rcases Rooted.exists_subquery rooted with ⟨subquery, member, rfl⟩
  exact findSubquery_isSome member

/-- The id in the node that a path leads to. -/
def Trie.idAt (trie : Trie) (path : List Expression) : Option Text :=
  (Arena.walk trie 0 path).bind fun address => trie[address]?.map TreeNode.mark

/-- The children of a node hold distinct expressions, and it owns the nodes they point to. -/
structure WellFormed (trie : Trie) : Prop where
  distinct : ∀ node ∈ trie, (node.children.map Prod.fst).Nodup
  owns : ∀ node ∈ trie, node.owned = node.children.map Prod.snd
  valid : ∀ node expression target, node ∈ trie -> (expression, target) ∈ node.children ->
    0 < target ∧ target < trie.length
  apart : ∀ (first second : Nat) (firstNode secondNode : TreeNode Expression Text)
    (firstExpression secondExpression : Expression) (target : Nat),
    trie[first]? = some firstNode -> trie[second]? = some secondNode ->
    (firstExpression, target) ∈ firstNode.children ->
    (secondExpression, target) ∈ secondNode.children ->
    first = second ∧ firstExpression = secondExpression

variable {trie : Trie} {words : List (List Expression)} {ids : List Expression -> Text}

section

variable (holds : Holds trie words ids ends)

include holds

lemma Holds.wellFormed : WellFormed trie where
  distinct := holds.represents.labels
  owns := holds.represents.owned
  valid node expression target inside child := by
    rcases getElem?_of_mem inside with ⟨address, found⟩
    rcases holds.represents.word_of_node found with ⟨word, spelled⟩
    have reached := (holds.represents.children found spelled expression target).mp child
    have bound := (List.getElem?_eq_some_iff.mp reached).1
    rw [holds.represents.length_eq] at bound
    refine ⟨Nat.pos_of_ne_zero ?_, bound⟩
    rintro rfl
    rw [holds.represents.root] at reached
    simp at reached
  apart first second firstNode secondNode firstExpression secondExpression target atFirst atSecond :=
    holds.represents.parent_unique atFirst atSecond

lemma Holds.idAt (path : List Expression) :
    trie.idAt path = if path ∈ words then some (ids path) else none := by
  by_cases inside : path ∈ words
  · rw [if_pos inside]
    rcases getElem?_of_mem inside with ⟨address, spelled⟩
    have walked := (holds.represents.walk_from path holds.represents.root address).mpr spelled
    rcases holds.represents.node_of_word spelled with ⟨node, found⟩
    rw [Trie.idAt, walked, bind_some, found, map_some, holds.represents.marked found spelled]
  · rw [if_neg inside]
    cases walked : Arena.walk trie 0 path with
    | none => rw [Trie.idAt, walked, bind_none]
    | some address =>
      have spelled := (holds.represents.walk_from path holds.represents.root address).mp walked
      exact (inside (mem_of_getElem? spelled)).elim

/-- The trie for the sequences of a query: a tree of the parts that the paths of the sequences start
with. -/
structure IsTrieOf (query : DelliciusQuery) (sequences : List (List Text)) (trie : Trie) : Prop where
  wellFormed : WellFormed trie
  paths : ∀ path, (Arena.walk trie 0 path).isSome = true ↔
    ∃ sequence ∈ sequences, path <+: spelledPath query sequence
  ids : ∀ subqueryId path, subqueryId ≠ [] ->
    (trie.idAt path = some subqueryId ↔ EndsAt query sequences subqueryId path)

/-- Both attempts succeed with tries that agree on every path, or both fail with the
same code. -/
def SameOutcome (first second : StatusOr Trie) : Prop :=
  match first, second with
  | .ok trie, .ok other => ∀ path, trie.idAt path = other.idAt path
  | .error status, .error other => status.code = other.code
  | _, _ => False

lemma Holds.ids_eq {other : Trie} {otherWords : List (List Expression)}
    {otherIds : List Expression -> Text} (otherHolds : Holds other otherWords otherIds ends)
    (path : List Expression) : ids path = otherIds path := by
  by_cases named : ids path = []
  · by_cases otherNamed : otherIds path = []
    · rw [named, otherNamed]
    · have endsHere := (otherHolds.id_iff _ path otherNamed).mp rfl
      exact (holds.id_iff _ path otherNamed).mpr endsHere
  · have endsHere := (holds.id_iff _ path named).mp rfl
    exact ((otherHolds.id_iff _ path named).mpr endsHere).symm

end

lemma Builds.sameOutcome {first second : StatusOr Trie} {split : Prop}
    (builds : Builds first split ends)
    (otherBuilds : Builds second split ends) : SameOutcome first second := by
  cases first with
  | ok trie =>
    rcases builds with ⟨splits, words, ids, holds⟩
    cases second with
    | ok other =>
      rcases otherBuilds with ⟨-, otherWords, otherIds, otherHolds⟩
      intro path
      have sameWords : path ∈ words ↔ path ∈ otherWords := by
        rw [holds.mem_iff, otherHolds.mem_iff]
      simp only [holds.idAt, otherHolds.idAt, sameWords, holds.ids_eq otherHolds]
    | error status => exact (otherBuilds.2 ⟨splits, holds.unambiguous⟩).elim
  | error status =>
    cases second with
    | ok other =>
      rcases otherBuilds with ⟨splits, words, ids, holds⟩
      exact (builds.2 ⟨splits, holds.unambiguous⟩).elim
    | error other => exact builds.1.trans otherBuilds.1.symm

lemma Builds.isOk_iff {outcome : StatusOr Trie} {split : Prop}
    (builds : Builds outcome split ends) :
    outcome.isOk = true ↔ split ∧ Unambiguous ends := by
  cases outcome with
  | ok trie =>
    rcases builds with ⟨splits, words, ids, holds⟩
    exact iff_of_true rfl ⟨splits, holds.unambiguous⟩
  | error status => exact iff_of_false nofun builds.2

lemma spelledPath_append (query : DelliciusQuery) (earlier later : List Text) :
    spelledPath query (earlier ++ later) = spelledPath query earlier ++ spelledPath query later :=
  flatMap_append

variable {sequences : List (List Text)}

lemma starts_endsAt_iff (some_ : sequences ≠ []) :
    (path = [] ∨ ∃ subqueryId whole, EndsAt query sequences subqueryId whole ∧ path <+: whole) ↔
      ∃ sequence ∈ sequences, path <+: spelledPath query sequence := by
  constructor
  · rintro (rfl | ⟨subqueryId, whole, ⟨sequence, inside, earlier, later, rfl, rfl⟩, starts⟩)
    · rcases exists_mem_of_ne_nil sequences some_ with ⟨sequence, inside⟩
      exact ⟨sequence, inside, nil_prefix⟩
    · refine ⟨_, inside, starts.trans ?_⟩
      have whole : earlier ++ subqueryId :: later = (earlier ++ [subqueryId]) ++ later := by simp
      rw [whole, spelledPath_append query (earlier ++ [subqueryId])]
      exact prefix_append _ _
  · rintro ⟨sequence, inside, starts⟩
    rcases eq_nil_or_concat sequence with rfl | ⟨earlier, subqueryId, rfl⟩
    · exact .inl (prefix_nil.mp starts)
    · exact .inr ⟨subqueryId, _, ⟨_, inside, earlier, [], concat_eq_append, rfl⟩,
        by simpa using starts⟩

lemma joined_sequences (joins : Joins query status sequences) (fine : status.isOk = true) :
    sequences ≠ [] ∧ ∀ sequence ∈ sequences, ∀ subqueryId ∈ sequence, Rooted query subqueryId := by
  constructor
  · rintro rfl
    have joinable : ¬ Unjoinable query := by
      rw [<- joins.fails_iff, fine]
      exact nofun
    rw [Unjoinable, not_or] at joinable
    rcases not_forall_not.mp joinable.1 with ⟨root, isRoot⟩
    have straight : ¬ ReachesCycle (Links query) root :=
      fun cycle => joinable.2 ⟨root, isRoot, cycle⟩
    rcases exists_isMaximalChain isRoot straight .refl with ⟨chain, maximal, -⟩
    exact nomatch (joins.mem_iff fine chain).mpr maximal
  · intro sequence inside subqueryId member
    exact ((joins.mem_iff fine sequence).mp inside).rooted member

lemma createRedPathTrie_builds (named : ∀ subquery ∈ query.subquery, subquery.subqueryId ≠ [])
    (order : IterationOrder Text) (sequenceOrder : IterationOrder (List Text)) {bound : Nat}
    (joined : joinSubqueries order bound query = some (status, sequences))
    (joins : Joins query status sequences) (fine : status.isOk = true) :
    ∃ outcome, createRedPathTrie order sequenceOrder bound query = some outcome ∧
      Builds outcome (∀ sequence ∈ sequences, Splits query sequence) (EndsAt query sequences) := by
  have known : ∀ sequence ∈ sequenceOrder.iterate sequences, ∀ subqueryId ∈ sequence,
      subqueryId ≠ [] ∧ (findSubquery query subqueryId).isSome = true := by
    intro sequence inside subqueryId member
    have rooted := (joined_sequences joins fine).2 sequence
      (sequenceOrder.mem_iterate.mp inside) subqueryId member
    rcases Rooted.exists_subquery rooted with ⟨subquery, inQuery, rfl⟩
    exact ⟨named subquery inQuery, findSubquery_isSome inQuery⟩
  rcases processSubquerySequences_builds (sequenceOrder.iterate sequences) known Holds.empty with
    ⟨outcome, ran, builds⟩
  refine ⟨outcome, ?_, builds.congr ?_ ?_⟩
  · simp only [createRedPathTrie, joined, fine, Bool.not_true, if_neg Bool.false_ne_true, ran]
  · simp only [sequenceOrder.mem_iterate]
  · intro subqueryId path
    simp only [EndsAt, sequenceOrder.mem_iterate, false_or]

lemma Holds.isTrieOf (holds : Holds trie words ids (EndsAt query sequences))
    (some_ : sequences ≠ []) : IsTrieOf query sequences trie := by
  refine ⟨holds.wellFormed, fun path => ?_, fun subqueryId path named => ?_⟩
  · rw [<- starts_endsAt_iff some_, <- holds.mem_iff, isSome_iff_exists]
    constructor
    · rintro ⟨address, walked⟩
      exact mem_of_getElem?
        ((holds.represents.walk_from path holds.represents.root address).mp walked)
    · intro inside
      rcases getElem?_of_mem inside with ⟨address, spelled⟩
      exact ⟨address, (holds.represents.walk_from path holds.represents.root address).mpr spelled⟩
  · rw [holds.idAt, <- holds.id_iff subqueryId path named]
    constructor
    · intro found
      split at found
      · exact Option.some.inj found
      · cases found
    · rintro rfl
      have endsHere := (holds.id_iff _ path named).mp rfl
      exact if_pos ((holds.mem_iff path).mpr (.inr ⟨_, path, endsHere, prefix_rfl⟩))

/-- For every query that `JoinSubqueries` accepts and whose ids are not empty, and for all orders of
iteration: `CreateRedPathTrie` succeeds exactly if the RedPaths of the joined subqueries split and
no two of them end at the same path. The trie is the one for the sequences, and with other orders
the attempt turns out the same. -/
theorem createRedPathTrie_isTrieOf {query : DelliciusQuery}
    (named : ∀ subquery ∈ query.subquery, subquery.subqueryId ≠ [])
    (order : IterationOrder Text) (sequenceOrder : IterationOrder (List Text)) {bound : Nat}
    (enough : (buildParentChildSubqueryMap query).length < bound) {sequences : List (List Text)}
    (joined : joinSubqueries order bound query = some (.okStatus, sequences)) :
    ∃ outcome, createRedPathTrie order sequenceOrder bound query = some outcome ∧
      (outcome.isOk = true ↔
        (∀ sequence ∈ sequences, Splits query sequence) ∧ Unambiguous (EndsAt query sequences)) ∧
      (∀ status, outcome = .error status -> status.code = .invalidArgument) ∧
      (∀ trie, outcome = .ok trie -> IsTrieOf query sequences trie) ∧
      ∀ (otherOrder : IterationOrder Text) (otherSequenceOrder : IterationOrder (List Text)),
        ∃ other, createRedPathTrie otherOrder otherSequenceOrder bound query = some other ∧
          SameOutcome outcome other := by
  rcases joinSubqueries_joins query order enough with ⟨status, chains, ran, joins⟩
  rw [joined] at ran
  cases ran
  rcases createRedPathTrie_builds named order sequenceOrder joined joins rfl with
    ⟨outcome, created, builds⟩
  refine ⟨outcome, created, builds.isOk_iff, ?_, ?_, ?_⟩
  · rintro status rfl
    exact builds.1
  · rintro trie rfl
    rcases builds with ⟨-, words, ids, holds⟩
    exact holds.isTrieOf (joined_sequences joins rfl).1
  · intro otherOrder otherSequenceOrder
    rcases joinSubqueries_joins query otherOrder enough with
      ⟨otherStatus, otherSequences, otherJoined, otherJoins⟩
    have fine : otherStatus.isOk = true := by
      rw [<- Bool.not_eq_false, otherJoins.fails_iff, <- joins.fails_iff]
      exact nofun
    have same : ∀ sequence, sequence ∈ otherSequences ↔ sequence ∈ sequences := by
      intro sequence
      rw [otherJoins.mem_iff fine, joins.mem_iff rfl]
    rcases createRedPathTrie_builds named otherOrder otherSequenceOrder otherJoined otherJoins fine
      with ⟨other, otherCreated, otherBuilds⟩
    refine ⟨other, otherCreated, builds.sameOutcome (otherBuilds.congr ?_ ?_)⟩
    · simp only [same]
    · intro subqueryId path
      simp only [EndsAt, same]

/-- A subquery at a RedPath. -/
def redpathSubquery (subqueryId : Text) (rootSubqueryIds : List Text) (redpath : Text) : Subquery :=
  { Subquery.empty with
    subqueryId := subqueryId
    rootSubqueryIds := rootSubqueryIds
    resource := .redpath redpath }

/-- Two subqueries below the same root. -/
def processorsQuery : DelliciusQuery :=
  ⟨text "query",
    [redpathSubquery (text "Systems") [] (text "/Systems[*]"),
      redpathSubquery (text "Processors") [text "Systems"] (text "/Processors[*]"),
      redpathSubquery (text "Memory") [text "Systems"] (text "/Memory[*]")], none⟩

theorem createRedPathTrie_processorsQuery :
    (buildParentChildSubqueryMap processorsQuery).length < 2 ∧
    ∃ sequences, joinSubqueries (.listed _) 2 processorsQuery = some (.okStatus, sequences) ∧
    ∃ trie, createRedPathTrie (.listed _) (.reversed _) 2 processorsQuery = some (.ok trie) ∧
      IsTrieOf processorsQuery sequences trie := by
  have enough : (buildParentChildSubqueryMap processorsQuery).length < 2 := by decide
  have joined : joinSubqueries (.listed _) 2 processorsQuery = some (.okStatus,
      [[text "Systems", text "Processors"], [text "Systems", text "Memory"]]) := by decide
  have named : ∀ subquery ∈ processorsQuery.subquery, subquery.subqueryId ≠ [] := by decide
  refine ⟨enough, _, joined, ?_⟩
  rcases createRedPathTrie_isTrieOf named (.listed _) (.reversed _) enough joined with
    ⟨outcome, created, -, -, isTrie, -⟩
  have succeeds : (createRedPathTrie (.listed _) (.reversed _) 2 processorsQuery).map
      Except.isOk = some true := by decide
  rw [created] at succeeds
  cases outcome with
  | error status => cases succeeds
  | ok trie => exact ⟨trie, created, isTrie trie rfl⟩

/-- A query with a subquery that no sequence reaches, and whose RedPath does not split. -/
def detachedQuery : DelliciusQuery :=
  ⟨text "query",
    [redpathSubquery (text "Systems") [] (text "/Systems[*]"),
      redpathSubquery (text "Detached") [text "Detached"] (text "/Systems[")], none⟩

/-- Two subqueries at the same RedPath. -/
def doubledQuery : DelliciusQuery :=
  ⟨text "query",
    [redpathSubquery (text "One") [] (text "/Systems[*]"),
      redpathSubquery (text "Two") [] (text "/Systems[*]")], none⟩

/-- A RedPath that does not split is no obstacle in no sequence, and which error is returned depends
on the order. -/
theorem createRedPathTrie_ignores_detached :
    (∃ sequences trie,
      joinSubqueries (.listed _) 2 detachedQuery = some (.okStatus, sequences) ∧
      createRedPathTrie (.listed _) (.listed _) 2 detachedQuery = some (.ok trie) ∧
      (expressionsOf detachedQuery (text "Detached")).isOk = false) ∧
    createRedPathTrie (.listed _) (.listed _) 1 doubledQuery = some (.error (.invalidArgument
      (text "Same RedPath found in multiple subqueries. Check subqueries One and Two"))) ∧
    createRedPathTrie (.listed _) (.reversed _) 1 doubledQuery = some (.error (.invalidArgument
      (text "Same RedPath found in multiple subqueries. Check subqueries Two and One"))) := by
  refine ⟨⟨_, _, rfl, rfl, by decide⟩, rfl, rfl⟩

end Ecclesia.Planner
