import Ecclesia.Planner.Visits

namespace Ecclesia.Planner

open List

/-!
# What a traversal loses

A traversal that passes over an expression selects nothing where another one
selects something.  The two traversals agree exactly when there is nothing to
visit behind the expressions that one of them passes over.
-/

variable {Object Iterable : Type}
  (select narrower : Place Object Iterable -> RedPathExpression ->
    List (RedfishResponse Object Iterable))

/-- The second selection passes over some expressions, and agrees with the first
one everywhere else. -/
def PassesOver : Prop :=
  ∀ place expression, narrower place expression = select place expression ∨
    narrower place expression = []

variable {select narrower}

variable {node : RedPathTrieNode} {start place : Place Object Iterable}

lemma Comes.widen (passes : PassesOver select narrower) {root : RedPathTrieNode}
    (comes : Comes narrower root start node place) : Comes select root start node place := by
  induction comes with
  | start => exact .start
  | @step node place expression response came member selected ih =>
    rcases passes place expression with same | nothing
    · rw [same] at selected
      exact .step ih member selected
    · rw [nothing] at selected
      exact nomatch selected

lemma length_eq_of_flatMap_length_eq {Item Piece : Type} {items : List Item}
    {few many : Item -> List Piece} (le : ∀ item ∈ items, (few item).length <= (many item).length)
    (same : (items.flatMap few).length = (items.flatMap many).length) :
    ∀ item ∈ items, (few item).length = (many item).length := by
  induction items with
  | nil => exact nofun
  | cons first rest ih =>
    have leRest : (rest.flatMap few).length <= (rest.flatMap many).length := by
      rw [length_flatMap, length_flatMap]
      exact sum_le_sum fun item member => le item (.tail _ member)
    have leFirst := le first (.head _)
    rw [flatMap_cons, flatMap_cons, length_append, length_append] at same
    intro item member
    rcases mem_cons.mp member with rfl | member
    · omega
    · exact ih (fun other listed => le other (.tail _ listed)) (by omega) item member

variable {expression : RedPathExpression}

lemma visitsBehind_length_le (passes : PassesOver select narrower)
    (below : ∀ place, (visits narrower place expression.trieNode.ends).length <=
      (visits select place expression.trieNode.ends).length) :
    (visitsBehind narrower place expression).length <=
      (visitsBehind select place expression).length := by
  unfold visitsBehind
  rcases passes place expression with same | nothing
  · rw [same, length_flatMap, length_flatMap]
    exact sum_le_sum fun response _ => below _
  · rw [nothing]
    exact Nat.zero_le _

mutual

theorem RedPathTrieNode.visits_length_le (passes : PassesOver select narrower)
    (place : Place Object Iterable) : ∀ node : RedPathTrieNode,
      (visits narrower place node.ends).length <= (visits select place node.ends).length
  | .mk subqueryId children => by
    rw [(visits_node narrower place _).length_eq, (visits_node select place _).length_eq,
      length_append, length_append]
    exact Nat.add_le_add_left (visitsBehind_lengths_le passes place children) _

theorem RedPathExpression.visits_length_le (passes : PassesOver select narrower)
    (place : Place Object Iterable) : ∀ expression : RedPathExpression,
      (visits narrower place expression.trieNode.ends).length <=
        (visits select place expression.trieNode.ends).length
  | .mk _ _ node => node.visits_length_le passes place

theorem visitsBehind_lengths_le (passes : PassesOver select narrower)
    (place : Place Object Iterable) : ∀ children : List RedPathExpression,
      (children.flatMap (visitsBehind narrower place)).length <=
        (children.flatMap (visitsBehind select place)).length
  | [] => le_rfl
  | expression :: rest => by
    rw [flatMap_cons, flatMap_cons, length_append, length_append]
    exact Nat.add_le_add
      (visitsBehind_length_le passes fun place => expression.visits_length_le passes place)
      (visitsBehind_lengths_le passes place rest)

end

lemma visitsBehind_length_eq (passes : PassesOver select narrower)
    (full : (visits narrower place node.ends).length = (visits select place node.ends).length)
    (member : expression ∈ node.childExpressions) :
    (visitsBehind narrower place expression).length =
      (visitsBehind select place expression).length := by
  rw [(visits_node narrower place _).length_eq, (visits_node select place _).length_eq,
    length_append, length_append] at full
  refine length_eq_of_flatMap_length_eq ?_ (Nat.add_left_cancel full) expression member
  intro other _
  exact visitsBehind_length_le passes fun place => other.visits_length_le passes place

/-- If as much is visited from the root, then as much is visited from everywhere
the full traversal comes to. -/
lemma visits_length_eq_of_comes (passes : PassesOver select narrower) {root : RedPathTrieNode}
    (full : (visits narrower start root.ends).length = (visits select start root.ends).length)
    (comes : Comes select root start node place) :
    (visits narrower place node.ends).length = (visits select place node.ends).length := by
  induction comes with
  | start => exact full
  | @step node place expression response came member selected ih =>
    have behind := visitsBehind_length_eq passes ih member
    have le : ∀ other ∈ select place expression,
        (visits narrower (place.next expression other) expression.trieNode.ends).length <=
          (visits select (place.next expression other) expression.trieNode.ends).length :=
      fun other _ => expression.visits_length_le passes _
    unfold visitsBehind at behind
    rcases passes place expression with same | nothing
    · rw [same] at behind
      exact length_eq_of_flatMap_length_eq le behind response selected
    · -- Nothing is visited behind a selection that the other traversal passes over.
      rw [nothing] at behind
      have none := flatMap_eq_nil_iff.mp (eq_nil_of_length_eq_zero behind.symm) response selected
      have fewer := le response selected
      rw [none] at fewer ⊢
      exact Nat.le_zero.mp fewer

/-- There is nothing to visit behind the expressions of a context. -/
def IdleContext
    (select : Place Object Iterable -> RedPathExpression -> List (RedfishResponse Object Iterable))
    (context : QueryExecutionContext Object Iterable) : Prop :=
  ∀ expression ∈ context.redpathTrieNode.childExpressions,
    visitsBehind select context.place expression = []

lemma visits_eq_nil_of_behind (nothing : visitsBehind select place expression = [])
    {response : RedfishResponse Object Iterable} (selected : response ∈ select place expression) :
    expression.trieNode.subqueryId = [] ∧
      ∀ next ∈ expression.trieNode.childExpressions,
        visitsBehind select (place.next expression response) next = [] := by
  have none := visits_node select (place.next expression response) expression.trieNode
  rw [flatMap_eq_nil_iff.mp nothing response selected] at none
  rcases append_eq_nil_iff.mp none.nil_eq.symm with ⟨own, behind⟩
  refine ⟨?_, flatMap_eq_nil_iff.mp behind⟩
  unfold RedPathTrieNode.ownVisit at own
  split_ifs at own with unnamed
  exact List.isEmpty_iff.mp unnamed

namespace Ideal

variable (ideal : Ideal Object Iterable)

lemma normalizeAll_unnamed {trieNode : RedPathTrieNode} (unnamed : trieNode.subqueryId = [])
    (contexts : List (QueryExecutionContext Object Iterable)) (seen : Observed Object Iterable) :
    (ideal.normalizeAll trieNode contexts seen).1 = seen := by
  induction contexts generalizing seen with
  | nil => rfl
  | cons context rest ih =>
    have first : (ideal.normalize trieNode context seen).1 = seen := by
      unfold normalize
      rw [unnamed]
      rfl
    rw [normalizeAll, ih, first]

variable {context : QueryExecutionContext Object Iterable} {expression : RedPathExpression}

lemma follow_idle (nothing : visitsBehind ideal.select context.place expression = [])
    (seen : Observed Object Iterable) :
    ∃ found, ideal.follow seen context expression = .ok (seen, context, found) ∧
      ∀ next ∈ found, IdleContext ideal.select next := by
  have unchanged : (ideal.normalizeAll expression.trieNode
      (context.contextsFor expression (ideal.select context.place expression)) seen).1 =
        seen := by
    cases selected : ideal.select context.place expression with
    | nil => rfl
    | cons response rest =>
      have first : response ∈ ideal.select context.place expression := by
        rw [selected]
        exact (.head _)
      exact ideal.normalizeAll_unnamed (visits_eq_nil_of_behind nothing first).1 _ _
  have followed : ideal.follow seen context expression = .ok (seen, context,
      (ideal.normalizeAll expression.trieNode
        (context.contextsFor expression (ideal.select context.place expression)) seen).2) := by
    rw [follow, unchanged]
  refine ⟨_, followed, ?_⟩
  intro next member
  rcases ideal.follow_member followed member with ⟨atNode, -, response, selected, atPlace⟩
  intro other listed
  rw [atNode] at listed
  rw [atPlace]
  exact (visits_eq_nil_of_behind nothing selected).2 other listed

/-- The same traversal with another selection. -/
def withSelect (narrower : Place Object Iterable -> RedPathExpression ->
    List (RedfishResponse Object Iterable)) : Ideal Object Iterable :=
  { ideal with select := narrower }

lemma normalizeAll_withSelect (trieNode : RedPathTrieNode)
    (contexts : List (QueryExecutionContext Object Iterable)) (seen : Observed Object Iterable) :
    (ideal.withSelect narrower).normalizeAll trieNode contexts seen =
      ideal.normalizeAll trieNode contexts seen := by
  induction contexts generalizing seen with
  | nil => rfl
  | cons context rest ih =>
    rw [normalizeAll, ih]
    rfl

/-- One step of both traversals where nothing is lost. -/
lemma follow_withSelect_thinned (passes : PassesOver ideal.select narrower)
    (lossless : narrower context.place expression = ideal.select context.place expression ∨
      visitsBehind ideal.select context.place expression = []) (seen : Observed Object Iterable) :
    ∃ after found kept, ideal.follow seen context expression = .ok (after, context, found) ∧
      (ideal.withSelect narrower).follow seen context expression = .ok (after, context, kept) ∧
      Search.Thinned (IdleContext ideal.select) found kept ∧
      ∀ next ∈ kept, next ∈ found := by
  have agreeing : narrower context.place expression = ideal.select context.place expression ->
      (ideal.withSelect narrower).follow seen context expression =
        ideal.follow seen context expression := by
    intro agrees
    unfold follow
    rw [show (ideal.withSelect narrower).select context.place expression =
      ideal.select context.place expression from agrees, normalizeAll_withSelect]
  rcases lossless with agrees | nothing
  · exact ⟨_, _, _, rfl, agreeing agrees, .refl _, fun _ listed => listed⟩
  · rcases passes context.place expression with agrees | passed
    · exact ⟨_, _, _, rfl, agreeing agrees, .refl _, fun _ listed => listed⟩
    · rcases ideal.follow_idle nothing seen with ⟨found, followed, idle⟩
      refine ⟨seen, found, [], followed, ?_, .none idle, nofun⟩
      unfold follow
      rw [show (ideal.withSelect narrower).select context.place expression = [] from passed]
      rfl

lemma run_eq_of_thinned {node : RedPathTrieNode} {response : RedfishResponse Object Iterable}
    (thinner : Search (Observed Object Iterable) (QueryExecutionContext Object Iterable)
      RedPathExpression Empty)
    (sameEdges : ∀ context, thinner.edges context = context.redpathTrieNode.childExpressions)
    (follows : ∀ seen context expression,
      Comes ideal.select node ⟨[], response⟩ context.redpathTrieNode context.place ->
      expression ∈ context.redpathTrieNode.childExpressions ->
      ∃ after found kept, ideal.follow seen context expression = .ok (after, context, found) ∧
        thinner.follow seen context expression = .ok (after, context, kept) ∧
        Search.Thinned (IdleContext ideal.select) found kept ∧
        ∀ next ∈ kept, next ∈ found) :
    thinner.run (ideal.normalize node (.start node response) ⟨[], []⟩).1
        (ideal.normalize node (.start node response) ⟨[], []⟩).2 =
      ideal.run node response := by
  have atStart : Comes ideal.select node ⟨[], response⟩
      (ideal.normalize node (.start node response) ⟨[], []⟩).2.redpathTrieNode
      (ideal.normalize node (.start node response) ⟨[], []⟩).2.place := by
    rw [normalize_trieNode, normalize_place]
    exact .start
  have both : ∃ final, ideal.run node response = .ok final ∧
      thinner.explore (ideal.normalize node (.start node response) ⟨[], []⟩).1
        (ideal.normalize node (.start node response) ⟨[], []⟩).2
        (ideal.search.edges (ideal.normalize node (.start node response) ⟨[], []⟩).2) [] =
          .ok final := by
    refine (ideal.search.explore_thinned thinner sameEdges (IdleContext ideal.select)
      (fun context => Comes ideal.select node ⟨[], response⟩ context.redpathTrieNode
        context.place) ?_ ?_ (fun _ member => member) .nil nofun).1 atStart
    · intro seen context expression idle member
      exact ideal.follow_idle (idle expression member) seen
    · intro seen context expression comes member
      rcases follows seen context expression comes member with
        ⟨after, found, kept, followed, thinned, apart, among⟩
      refine ⟨after, found, kept, followed, thinned, apart, ?_⟩
      intro next listed
      rcases ideal.follow_member followed (among next listed) with
        ⟨atNext, -, response, selected, atPlace⟩
      rw [atNext, atPlace]
      exact .step comes member selected
  rcases both with ⟨final, ran, ranThinner⟩
  rw [ran, Search.run, sameEdges]
  exact ranThinner

/-- Two traversals, one of which passes over expressions, agree if there is nothing behind these. -/
lemma run_withSelect_eq_iff (passes : PassesOver ideal.select narrower)
    (node : RedPathTrieNode) (response : RedfishResponse Object Iterable) :
    (ideal.withSelect narrower).run node response = ideal.run node response ↔
      ∀ reached place expression, Comes ideal.select node ⟨[], response⟩ reached place ->
        expression ∈ reached.childExpressions ->
          narrower place expression = ideal.select place expression ∨
            visitsBehind ideal.select place expression = [] := by
  constructor
  · intro same reached place expression comes member
    rcases ideal.run_normalized node response with ⟨seen, ran, collects⟩
    rcases (ideal.withSelect narrower).run_normalized node response with
      ⟨others, ranOthers, collectsOthers⟩
    rw [same, ran] at ranOthers
    cases ranOthers
    have full := collectsOthers.length_eq.symm.trans collects.length_eq
    have behind := visitsBehind_length_eq passes
      (visits_length_eq_of_comes passes full comes) member
    rcases passes place expression with agrees | nothing
    · exact .inl agrees
    · unfold visitsBehind at behind
      rw [nothing] at behind
      exact .inr (eq_nil_of_length_eq_zero behind.symm)
  · intro lossless
    apply ideal.run_eq_of_thinned (ideal.withSelect narrower).search (fun _ => rfl)
    intro seen context expression comes member
    exact ideal.follow_withSelect_thinned passes (lossless _ _ _ comes member) seen

end Ideal

end Ecclesia.Planner
