import Ecclesia.Planner.Table

namespace Ecclesia.Planner

open Absl

/-!
# The timing session of a run

A run opens a timing session at its start.  The normal end closes it, and so
does the return on the first error; all other early returns leave it open, and
the next run then waits for it in vain.  The main result says which runs close
their session, and follows a planner through any sequence of runs.
-/

variable {World Object Iterable : Type}

section

def SessionClosed (timeoutManager : Option QueryTimeoutManager) : Prop :=
  ∀ manager, timeoutManager = some manager -> manager.inProgress = false

/-- The run does not return with its timing session open. -/
def ClosesTiming (outcome : RunOutcome World) : Prop :=
  match outcome with
  | .returned _ timeoutManager _ => SessionClosed timeoutManager
  | .thrown _ => True

variable (planner : QueryPlanner World Object Iterable)
  (options : QueryExecutionOptions World Object Iterable)

/-- The answer to an expression at a place of the traversal. -/
def answerAt (state : RunState World Object Iterable)
    (context : QueryExecutionContext Object Iterable) (expression : RedPathExpression) :
    Evaluation (List (QueryExecutionContext Object Iterable)) × ExecutionState World :=
  executeQueryExpression planner options.queryType expression context options.queryVariables
    (localInterface planner options) (state.toExecution context)

/-- The state in which the contexts of an answer are normalised. -/
def stateForContexts (state : RunState World Object Iterable)
    (context : QueryExecutionContext Object Iterable) (expression : RedPathExpression)
    (contexts : List (QueryExecutionContext Object Iterable)) :
    RunState World Object Iterable :=
  let executed := (answerAt planner options state context expression).2
  { state.afterExecution executed with
    subscriptionContext := (populateSubscriptionContext planner contexts
      { context with urisToSubscribe := executed.urisToSubscribe } expression options
      state.subscriptionContext).2 }

/-- One of the contexts cannot be normalised, and those before it can. -/
def NormalizationFails (trieNode : RedPathTrieNode)
    (contexts : List (QueryExecutionContext Object Iterable))
    (state : RunState World Object Iterable) : Prop :=
  ∃ before context after between normalized,
    contexts = before ++ context :: after ∧
    normalizeContexts planner options trieNode before state = .ok (between, normalized) ∧
    trieNode.subqueryId ≠ [] ∧
    (tryNormalize planner trieNode.subqueryId (localInterface planner options) context
      options.urlAnnotationEnabled between.result between.world).1.1.isOk = false

/-- The expression is answered by a cancellation, or a resource it selects cannot
be normalised. -/
def Breaks (state : RunState World Object Iterable)
    (context : QueryExecutionContext Object Iterable) (expression : RedPathExpression) : Prop :=
  (∃ status, (answerAt planner options state context expression).1 =
    .error (.status status) ∧ status.code = .cancelled) ∨
  (∃ contexts, (answerAt planner options state context expression).1 = .ok contexts ∧
    NormalizationFails planner options expression.trieNode contexts
      (stateForContexts planner options state context expression contexts))

variable {trieNode : RedPathTrieNode} {context : QueryExecutionContext Object Iterable}
  {state : RunState World Object Iterable} {leave : Leave World Object Iterable}

lemma normalizeContext_error
    (failed : normalizeContext planner options trieNode context state = .error leave) :
    trieNode.subqueryId ≠ [] ∧
      (tryNormalize planner trieNode.subqueryId (localInterface planner options) context
        options.urlAnnotationEnabled state.result state.world).1.1.isOk = false ∧
      ∃ final, leave = .returned false final := by
  unfold normalizeContext at failed
  split_ifs at failed with unnamed
  simp only at failed
  split_ifs at failed with fine
  cases failed
  refine ⟨?_, ?_, _, rfl⟩
  · intro empty
    exact unnamed (by rw [empty]; rfl)
  · simpa using fine

lemma normalizeContext_of_not_ok (named : trieNode.subqueryId ≠ [])
    (failed : (tryNormalize planner trieNode.subqueryId (localInterface planner options) context
      options.urlAnnotationEnabled state.result state.world).1.1.isOk = false) :
    ∃ final, normalizeContext planner options trieNode context state =
      .error (.returned false final) := by
  unfold normalizeContext
  rw [if_neg (by simpa using named)]
  simp only [failed]
  exact ⟨_, rfl⟩

variable {contexts : List (QueryExecutionContext Object Iterable)}

lemma normalizeContexts_error
    (failed : normalizeContexts planner options trieNode contexts state = .error leave) :
    NormalizationFails planner options trieNode contexts state ∧
      ∃ final, leave = .returned false final := by
  induction contexts generalizing state with
  | nil => cases failed
  | cons context rest ih =>
    rw [normalizeContexts] at failed
    cases first : normalizeContext planner options trieNode context state with
    | error early =>
      rw [first] at failed
      cases failed
      rcases normalizeContext_error planner options first with ⟨named, notOk, open_⟩
      exact ⟨⟨[], context, rest, state, [], rfl, rfl, named, notOk⟩, open_⟩
    | ok reached =>
      rcases reached with ⟨between, next⟩
      rw [first] at failed
      cases later : normalizeContexts planner options trieNode rest between with
      | ok ended =>
        simp only [bind, Except.bind, later] at failed
        cases failed
      | error late =>
        simp only [bind, Except.bind, later] at failed
        cases failed
        rcases ih later with
          ⟨⟨before, other, after, reached, normalized, parts, ran, named, notOk⟩, open_⟩
        refine ⟨⟨context :: before, other, after, reached, next :: normalized, ?_, ?_, named,
          notOk⟩, open_⟩
        · rw [parts, List.cons_append]
        · rw [normalizeContexts, first]
          simp only [bind, Except.bind, ran]
          rfl

lemma normalizeContexts_of_fails
    (fails : NormalizationFails planner options trieNode contexts state) :
    ∃ final, normalizeContexts planner options trieNode contexts state =
      .error (.returned false final) := by
  rcases fails with ⟨before, context, after, between, normalized, rfl, ran, named, notOk⟩
  induction before generalizing state normalized with
  | nil =>
    cases ran
    rcases normalizeContext_of_not_ok planner options named notOk with ⟨final, failed⟩
    refine ⟨final, ?_⟩
    rw [List.nil_append, normalizeContexts, failed]
    rfl
  | cons first before ih =>
    rcases bind_ok ran with ⟨⟨middle, next⟩, ranFirst, others⟩
    rcases bind_ok others with ⟨⟨later, rest⟩, ranRest, same⟩
    cases same
    rcases ih rest ranRest with ⟨final, failed⟩
    refine ⟨final, ?_⟩
    rw [List.cons_append, normalizeContexts, ranFirst]
    simp only [bind, Except.bind, failed]

lemma followExpression_leaves_open_iff (state : RunState World Object Iterable)
    (context : QueryExecutionContext Object Iterable) (expression : RedPathExpression) :
    (∃ final, followExpression planner options state context expression =
      .error (.returned false final)) ↔ Breaks planner options state context expression := by
  have unfolded : followExpression planner options state context expression =
      respond planner options
        (state.afterExecution (answerAt planner options state context expression).2)
        { context with urisToSubscribe :=
          (answerAt planner options state context expression).2.urisToSubscribe }
        expression (answerAt planner options state context expression).1 := rfl
  rw [unfolded]
  unfold Breaks
  cases answer : (answerAt planner options state context expression).1 with
  | error failure =>
    cases failure with
    | exception what => simp [respond]
    | status status =>
      by_cases absent : status.code = .notFound
      · simp [respond, absent]
      · by_cases cancelled : status.code = .cancelled
        · simp [respond, cancelled]
        · by_cases mode : planner.executionMode = .continueOnSubqueryErrors
          · simp [respond, absent, cancelled, mode]
          · simp [respond, absent, cancelled, mode]
  | ok contexts =>
    constructor
    · rintro ⟨final, left⟩
      cases ran : normalizeContexts planner options expression.trieNode contexts
          (stateForContexts planner options state context expression contexts) with
      | ok reached =>
        change (normalizeContexts planner options expression.trieNode contexts
          (stateForContexts planner options state context expression contexts) >>= _) = _ at left
        rw [ran] at left
        cases left
      | error leave =>
        exact .inr ⟨contexts, rfl, (normalizeContexts_error planner options ran).1⟩
    · rintro (⟨status, impossible, -⟩ | ⟨others, same, fails⟩)
      · cases impossible
      · cases same
        rcases normalizeContexts_of_fails planner options fails with ⟨final, failed⟩
        refine ⟨final, ?_⟩
        change (normalizeContexts planner options expression.trieNode contexts
          (stateForContexts planner options state context expression contexts) >>= _) = _
        rw [failed]
        rfl

/-- The service root is fetched and normalised, and nothing breaks the traversal. -/
def RunsThrough (world : World) : Prop :=
  ∃ root, (queryServiceRoot planner options world).1 = .ok root ∧
    ∃ state context,
      startTraversal planner options planner.redpathTrieRoot (.ofObject (some root))
          (queryServiceRoot planner options world).2 =
        .ok (state, context) ∧
      ∀ here current expression remaining queue,
        (runSearch planner options).Meets state context
          context.redpathTrieNode.childExpressions [] here current (expression :: remaining)
          queue -> ¬ Breaks planner options here current expression

lemma finishTiming_closed (timeoutManager : Option QueryTimeoutManager) (world : World) :
    SessionClosed (finishTiming planner timeoutManager world).1.2 := by
  cases timeoutManager with
  | none =>
    intro manager impossible
    cases impossible
  | some manager =>
    intro other same
    cases same
    rfl

variable {manager : QueryTimeoutManager}

lemma endTraversal_closes_iff (open_ : manager.inProgress = true)
    (state : RunState World Object Iterable) (context : QueryExecutionContext Object Iterable) :
    ClosesTiming (endTraversal planner options (some manager)
      ((runSearch planner options).run state context)) ↔
      ∀ here current expression remaining queue,
        (runSearch planner options).Meets state context
          context.redpathTrieNode.childExpressions [] here current (expression :: remaining)
          queue -> ¬ Breaks planner options here current expression := by
  have unbroken : ∀ explored, (runSearch planner options).run state context = explored ->
      (∀ final, explored ≠ .error (.returned false final)) ->
      ∀ here current expression remaining queue,
        (runSearch planner options).Meets state context
          context.redpathTrieNode.childExpressions [] here current (expression :: remaining)
          queue -> ¬ Breaks planner options here current expression := by
    intro explored ran other here current expression remaining queue met breaks
    rcases (followExpression_leaves_open_iff planner options here current expression).mpr breaks
      with ⟨final, followed⟩
    apply other final
    rw [<- ran]
    exact (runSearch planner options).explore_eq_error_iff.mpr
      ⟨here, current, expression, remaining, queue, met, followed⟩
  cases ran : (runSearch planner options).run state context with
  | ok final =>
    refine ⟨fun _ => unbroken _ ran (fun _ => nofun), fun _ => ?_⟩
    exact finishTiming_closed planner (some manager) _
  | error leave =>
    cases leave with
    | thrown what => exact ⟨fun _ => unbroken _ ran (fun _ => nofun), fun _ => trivial⟩
    | returned timingEnded final =>
      cases timingEnded with
      | true =>
        refine ⟨fun _ => unbroken _ ran (fun _ => nofun), fun _ => ?_⟩
        exact finishTiming_closed planner (some manager) _
      | false =>
        constructor
        · intro closes
          have closed := closes manager rfl
          rw [open_] at closed
          cases closed
        · intro fine
          rcases (runSearch planner options).explore_eq_error_iff.mp ran with
            ⟨here, current, expression, remaining, queue, met, followed⟩
          exact absurd ((followExpression_leaves_open_iff planner options here current
            expression).mp ⟨final, followed⟩)
            (fine here current expression remaining queue met)

lemma runTimed_closes_iff (open_ : manager.inProgress = true) (world : World) :
    ClosesTiming (runTimed planner options (some manager) world) ↔
      RunsThrough planner options world := by
  have leftOpen : ¬ SessionClosed (some manager) := by
    intro closed
    have idle := closed manager rfl
    rw [open_] at idle
    cases idle
  unfold runTimed RunsThrough
  simp only
  cases root : (queryServiceRoot planner options world).1 with
  | error failure =>
    rcases failure with ⟨message, code⟩
    simp only [ClosesTiming, leftOpen, false_iff]
    rintro ⟨object, impossible, -⟩
    cases impossible
  | ok object =>
    simp only [Except.ok.injEq, exists_eq_left']
    unfold runFromRoot
    cases started : startTraversal planner options planner.redpathTrieRoot
        (.ofObject (some object)) (queryServiceRoot planner options world).2 with
    | error final =>
      simp only [ClosesTiming, leftOpen, false_iff]
      rintro ⟨state, context, impossible, -⟩
      cases impossible
    | ok start =>
      rcases start with ⟨state, context⟩
      simp only [endTraversal_closes_iff planner options open_ state context]
      constructor
      · intro fine
        exact ⟨state, context, rfl, fine⟩
      · rintro ⟨otherState, otherContext, same, fine⟩
        cases same
        exact fine

lemma run_of_idle (idle : manager.inProgress = false) (world : World) :
    run planner options (some manager) world =
      runTimed planner options
        (some { manager with
          inProgress := true
          timeoutTime := (planner.now world).1 + manager.timeout })
        (planner.now world).2 := by
  have started : beginTiming planner (some manager) world =
      (.ok (some { manager with
        inProgress := true
        timeoutTime := (planner.now world).1 + manager.timeout }), (planner.now world).2) := by
    simp only [beginTiming, QueryTimeoutManager.startTiming, idle]
    rfl
  rw [run, started]

/-- Every run of a sequence finds no session open, and leaves none open. -/
def SessionsClosed : List (QueryExecutionOptions World Object Iterable) ->
    QueryTimeoutManager -> World -> Prop
  | [], manager, _ => manager.inProgress = false
  | options :: rest, manager, world =>
    manager.inProgress = false ∧
      match run planner options (some manager) world with
      | .thrown _ => True
      | .returned _ none _ => True
      | .returned _ (some left) after => SessionsClosed rest left after

/-- Every run of a sequence runs through, or ends with an exception. -/
def AllRunThrough : List (QueryExecutionOptions World Object Iterable) ->
    QueryTimeoutManager -> World -> Prop
  | [], _, _ => True
  | options :: rest, manager, world =>
    RunsThrough planner options (planner.now world).2 ∧
      match run planner options (some manager) world with
      | .thrown _ => True
      | .returned _ none _ => True
      | .returned _ (some left) after => AllRunThrough rest left after

/-- For every sequence of runs on one planner with a timeout, in either mode and against any
service: all timing sessions are closed when their runs return exactly when every run gets its
service root, normalises everything it selects and is not cancelled. -/
theorem sessions_closed_iff (runs : List (QueryExecutionOptions World Object Iterable))
    (manager : QueryTimeoutManager) (idle : manager.inProgress = false) (world : World) :
    SessionsClosed planner runs manager world ↔ AllRunThrough planner runs manager world := by
  induction runs generalizing manager world with
  | nil =>
    refine ⟨fun _ => trivial, fun _ => idle⟩
  | cons options rest ih =>
    have single : ClosesTiming (run planner options (some manager) world) ↔
        RunsThrough planner options (planner.now world).2 := by
      rw [run_of_idle planner options idle]
      exact runTimed_closes_iff planner options rfl _
    unfold SessionsClosed AllRunThrough
    rw [<- single]
    cases outcome : run planner options (some manager) world with
    | thrown what => exact ⟨fun _ => ⟨trivial, trivial⟩, fun _ => ⟨idle, trivial⟩⟩
    | returned result left after =>
      cases left with
      | none =>
        refine ⟨fun _ => ⟨?_, trivial⟩, fun _ => ⟨idle, trivial⟩⟩
        intro other impossible
        cases impossible
      | some left =>
        constructor
        · rintro ⟨-, later⟩
          have closed : left.inProgress = false := by
            cases rest with
            | nil => exact later
            | cons next others => exact later.1
          refine ⟨?_, (ih left closed after).mp later⟩
          intro other same
          cases same
          exact closed
        · rintro ⟨closed, later⟩
          exact ⟨idle, (ih left (closed left rfl) after).mpr later⟩

end

/-- A service whose root answers as given. -/
def rootTable (root : RedfishVariant Nat Nat) : ServiceTable :=
  ⟨root, [], [], []⟩

/-- A planner for this service, with nothing to query. -/
def rootPlanner (root : RedfishVariant Nat Nat) : QueryPlanner Unit Nat Nat :=
  tablePlanner (rootTable root) [] (.mk [] []) .failOnFirstError

/-- A timeout manager without a session. -/
def idleManager : QueryTimeoutManager := ⟨30, false, 0⟩

lemma rootPlanner_runsThrough : RunsThrough (rootPlanner (.ofObject 0)) pollingOptions () := by
  refine ⟨0, rfl, _, _, rfl, ?_⟩
  intro here current expression remaining queue met
  -- Without expressions the traversal never leaves its first place.
  have stays : ∀ here current left queue,
      (runSearch (rootPlanner (.ofObject 0)) pollingOptions).Meets
        ⟨(), .start (text "query"), none, []⟩ (.start (.mk [] []) (.ofObject (some 0))) [] []
        here current left queue -> left = [] ∧ queue = [] := by
    intro here current left queue met
    induction met with
    | start => exact ⟨rfl, rfl⟩
    | follow met followed ih => cases ih.1
    | take met ih => cases ih.2
  cases (stays _ _ _ _ met).1

lemma rootPlanner_run :
    run (rootPlanner (.ofObject 0)) pollingOptions (some idleManager) () =
      .returned ⟨.start (text "query"), none⟩ (some ⟨30, false, 30⟩) () := by
  change endTraversal _ _ _ (Search.explore _ _ _ [] []) = _
  rw [Search.explore_done]
  rfl

/-- A run against a root that answers. -/
theorem sessions_closed_rootPlanner :
    idleManager.inProgress = false ∧
      SessionsClosed (rootPlanner (.ofObject 0)) [pollingOptions] idleManager () := by
  refine ⟨rfl, (sessions_closed_iff (rootPlanner (.ofObject 0)) [pollingOptions] idleManager rfl
    ()).mpr ⟨rootPlanner_runsThrough, ?_⟩⟩
  rw [rootPlanner_run]
  trivial

/-- The root cannot be reached: the run returns with its session open, and the
next run cannot start. -/
theorem session_left_open :
    ¬ ClosesTiming (run (rootPlanner (.ofStatus ⟨.unavailable, text "down"⟩)) pollingOptions
        (some idleManager) ()) ∧
      ¬ SessionsClosed (rootPlanner (.ofStatus ⟨.unavailable, text "down"⟩))
        [pollingOptions, pollingOptions] idleManager () := by
  constructor
  · intro closed
    exact nomatch closed ⟨30, true, 30⟩ rfl
  · rintro ⟨-, impossible, -⟩
    exact nomatch impossible

end Ecclesia.Planner
