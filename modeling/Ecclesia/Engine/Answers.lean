import Ecclesia.Engine.TransportArbiter

namespace Ecclesia.Engine

open StubArbiter List

/-!
# Which queries are answered

The key of an entry is read off the variable that the callback sets.  So a query has its
entry just if its plan was run, which is decided by the arbiter and its factory before the
turn of the query.
-/

section

variable {World Interface Time Duration : Type}

/-- The variables of a turn, once the plan has been run some number of times. -/
structure Locals.Follow (plan : QueryPlan World Interface) (locals : Locals) : Prop where
  last : locals.resultSingle = locals.results.getLast?.getD (.start [])
  named : ∀ result ∈ locals.results, result.queryId = plan.planId

variable {plan : QueryPlan World Interface}

lemma Locals.Follow.getLast? {locals : Locals} (follows : locals.Follow plan)
    (ran : locals.results ≠ []) : locals.results.getLast? = some locals.resultSingle := by
  have last := follows.last
  cases isLast : locals.results.getLast? with
  | none => exact absurd (getLast?_eq_none_iff.mp isLast) ran
  | some result =>
    rw [isLast] at last
    rw [last]
    rfl

variable (surroundings : Surroundings World Interface Time)

section

variable (plan : QueryPlan World Interface) (options : PlanOptions)

lemma runPlan_keeps :
    Keeps (besides surroundings) (runPlan plan options) fun world => world.2.Follow plan where
  passing := fun _ follows => follows
  making := fun _ _ follows => follows
  calling := by
    intro interface label world follows
    refine ⟨?_, ?_⟩
    · simp [runPlan]
    · intro result member
      rcases mem_append.mp member with before | last
      · exact follows.named result before
      · rw [mem_singleton.mp last]
        exact plan.named options interface world.1

lemma runPlan_marks :
    Marks (besides surroundings) (runPlan plan options) fun world => world.2.results ≠ [] where
  passing := fun _ => .rfl
  making := fun _ _ => .rfl
  calling := by
    intro interface label world
    simp [runPlan]

end

variable (config : Config Duration)

lemma offers_besides (labels : List PriorityLabel) (world : World) (locals : Locals) :
    offers (besides surroundings) config labels (world, locals) =
      offers surroundings config labels world := by
  induction labels generalizing world with
  | nil => rfl
  | cons label rest ih =>
    unfold offers
    simp only [besides]
    cases (surroundings.stubFactory label world).1 with
    | error status =>
      rw [<- ih]
      rfl
    | ok interface => rfl

lemma processMetrics_queryId (metrics : Metrics Time)
    (transportStatus : HashMap PriorityLabel ErrorCode) (result : QueryResult) :
    (processMetrics metrics transportStatus result).queryResult.queryId = result.queryId := by
  have endpoint : ∀ label priority (before : TransportResult Time),
      (processEndpointMetrics metrics transportStatus label priority before).queryResult.queryId =
        before.queryResult.queryId := by
    intro label priority before
    unfold processEndpointMetrics
    cases metrics.endpointMetrics.lookup label with
    | none => rfl
    | some metrics => rfl
  unfold processMetrics
  rw [endpoint, endpoint]

variable [LinearOrder Time] [HAdd Time Duration Time] [Inhabited Time]

/-- The variables do not matter to the choice of a stub. -/
lemma usableStub_besides (arbiter : Arbiter Interface Time) (world : World) (locals : Locals) :
    let usable := usableStub surroundings config (.start surroundings arbiter world)
    let beside := usableStub (besides surroundings) config
      (.start (besides surroundings) arbiter (world, locals))
    beside.1 = usable.1 ∧ beside.2.world = (usable.2.world, locals) := by
  unfold usableStub
  simp only [Execution.start, besides]
  cases arbiter.activeStub with
  | none => exact ⟨rfl, rfl⟩
  | some interface =>
    cases config.allows arbiter (surroundings.time (surroundings.pass world)) with
    | true => exact ⟨rfl, rfl⟩
    | false => exact ⟨rfl, rfl⟩

lemma serves_besides (initialStub : PriorityLabel) (arbiter : Arbiter Interface Time)
    (world : World) (locals : Locals) :
    serves (besides surroundings) config initialStub arbiter (world, locals) =
      serves surroundings config initialStub arbiter world := by
  rcases usableStub_besides surroundings config arbiter world locals with ⟨same, beside⟩
  unfold serves
  cases config.type with
  | manual => rfl
  | unknown => rfl
  | failover =>
    simp only
    rw [same, beside, offers_besides]

variable {engine : TransportArbiterEngine World Interface Time Duration}
  {options : RedpathQueryOptions}

/-- What is known of a turn once it is over. -/
structure QueryRecord.Sound (engine : TransportArbiterEngine World Interface Time Duration)
    (options : RedpathQueryOptions) (record : QueryRecord World Interface Time) : Prop where
  planned : engine.idToRedpathQueryPlans.lookup record.queryId = some record.plan
  follows : record.locals.Follow record.plan
  ran : record.locals.results ≠ [] ↔
    serves engine.surroundings engine.arbiterConfig options.initialStub record.arbiter
      record.world = true

/-- The entry that a turn makes. -/
def QueryRecord.entry (record : QueryRecord World Interface Time) : TransportResult Time :=
  processMetrics record.metrics record.locals.transportStatus record.locals.resultSingle

/-- The key of the entry. -/
def QueryRecord.key (record : QueryRecord World Interface Time) : Text :=
  record.locals.resultSingle.queryId

variable {record : QueryRecord World Interface Time}

lemma QueryRecord.Sound.key_of_served (sound : record.Sound engine options)
    (served : record.Served engine options) :
    record.key = record.queryId ∧ record.Answers record.entry := by
  have last := sound.follows.getLast? (sound.ran.mpr served.2)
  refine ⟨?_, ?_⟩
  · rw [<- served.1]
    exact sound.follows.named _ (mem_of_getLast? last)
  · rw [QueryRecord.Answers, last]
    rfl

/-- A turn whose plan was not run makes an entry without an id. -/
lemma QueryRecord.Sound.key_of_unrun (sound : record.Sound engine options)
    (unrun : record.locals.results = []) : record.key = [] := by
  have last := sound.follows.last
  rw [unrun] at last
  rw [QueryRecord.key, last]
  rfl

variable [DecidableEq Interface]

lemma executeQuery_sound (options : RedpathQueryOptions) {queryId : Text}
    (planned : engine.idToRedpathQueryPlans.lookup queryId = some plan)
    (state : EngineState World Interface Time) :
    ∃ record : QueryRecord World Interface Time, record.Sound engine options ∧
      record.queryId = queryId ∧
      (executeQuery engine options queryId plan state).records = state.records ++ [record] ∧
      (executeQuery engine options queryId plan state).queryIdToResult =
        state.queryIdToResult.insert record.key record.entry := by
  refine ⟨_, ⟨planned, ?_, ?_⟩, rfl, rfl, ?_⟩
  · exact (runPlan_keeps engine.surroundings plan _).execute engine.known _ _
      ⟨rfl, forall_mem_nil _⟩
  · rw [<- serves_besides engine.surroundings engine.arbiterConfig _ _ _ .start]
    exact (runPlan_marks engine.surroundings plan _).execute engine.known _ _
      fun marked => marked rfl
  · unfold executeQuery
    simp only
    rw [processMetrics_queryId]
    rfl

/-- In the loop every turn is sound, the turns are those of the queries with plans, and the entries
are those of the turns. -/
structure Recorded (engine : TransportArbiterEngine World Interface Time Duration)
    (options : RedpathQueryOptions) (queryIds : List Text)
    (state : EngineState World Interface Time) : Prop where
  sound : ∀ record ∈ state.records, record.Sound engine options
  turns : ∀ queryId, (∃ record ∈ state.records, record.queryId = queryId) ↔
    queryId ∈ queryIds ∧ (engine.idToRedpathQueryPlans.lookup queryId).isSome = true
  keys : ∀ record ∈ state.records, (state.queryIdToResult.lookup record.key).isSome = true
  entries : ∀ key entry, state.queryIdToResult.lookup key = some entry ->
    ∃ record ∈ state.records, record.key = key ∧ record.entry = entry

lemma Recorded.turn {queryIds : List Text} {state : EngineState World Interface Time}
    (recorded : Recorded engine options queryIds state) (queryId : Text) :
    Recorded engine options (queryIds ++ [queryId]) (executeTurn engine options state queryId) := by
  unfold executeTurn
  cases planned : engine.idToRedpathQueryPlans.lookup queryId with
  | none =>
    refine ⟨recorded.sound, ?_, recorded.keys, recorded.entries⟩
    intro other
    rw [recorded.turns, mem_append, mem_singleton]
    constructor
    · exact fun ⟨inside, isPlanned⟩ => ⟨.inl inside, isPlanned⟩
    · rintro ⟨inside | rfl, isPlanned⟩
      · exact ⟨inside, isPlanned⟩
      · rw [planned] at isPlanned
        cases isPlanned
  | some plan =>
    rcases executeQuery_sound options planned state with ⟨record, sound, isFor, records, results⟩
    refine ⟨?_, ?_, ?_, ?_⟩
    · rw [records]
      intro other member
      rcases mem_append.mp member with before | last
      · exact recorded.sound other before
      · rwa [mem_singleton.mp last]
    · rw [records]
      intro other
      rw [mem_append, mem_singleton]
      constructor
      · rintro ⟨one, member, rfl⟩
        rcases mem_append.mp member with before | last
        · rcases (recorded.turns one.queryId).mp ⟨one, before, rfl⟩ with ⟨inside, isPlanned⟩
          exact ⟨.inl inside, isPlanned⟩
        · rw [mem_singleton.mp last, isFor, planned]
          exact ⟨.inr rfl, rfl⟩
      · rintro ⟨inside | rfl, isPlanned⟩
        · rcases (recorded.turns other).mpr ⟨inside, isPlanned⟩ with ⟨one, before, same⟩
          exact ⟨one, mem_append_left _ before, same⟩
        · exact ⟨record, mem_append_right _ (.head _), isFor⟩
    · rw [records, results]
      intro other member
      rw [HashMap.lookup_insert]
      split
      · rfl
      · next differs =>
          rcases mem_append.mp member with before | last
          · exact recorded.keys other before
          · rw [mem_singleton.mp last] at differs
            simp at differs
    · rw [records, results]
      intro key entry found
      rw [HashMap.lookup_insert] at found
      have earlier : state.queryIdToResult.lookup key = some entry ->
          ∃ one ∈ state.records ++ [record], one.key = key ∧ one.entry = entry := by
        intro before
        rcases recorded.entries key entry before with ⟨one, inside, same, isEntry⟩
        exact ⟨one, mem_append_left _ inside, same, isEntry⟩
      split at found
      · next same =>
          rw [<- eq_of_beq same] at found
          cases present : state.queryIdToResult.lookup key with
          | some current =>
            rw [present] at found
            exact earlier (present.trans found)
          | none =>
            rw [present] at found
            refine ⟨record, mem_append_right _ (.head _), (eq_of_beq same).symm, ?_⟩
            exact Option.some.inj found
      · exact earlier found

lemma executeRedpathQuery_recorded (queryIds : List Text) (arbiter : Arbiter Interface Time)
    (world : World) :
    Recorded engine options queryIds
      (executeRedpathQuery engine options queryIds arbiter world) := by
  have general : ∀ (rest done : List Text) (state : EngineState World Interface Time),
      Recorded engine options done state ->
        Recorded engine options (done ++ rest) (rest.foldl (executeTurn engine options) state) := by
    intro rest
    induction rest with
    | nil =>
      intro done state recorded
      rw [append_nil]
      exact recorded
    | cons queryId rest ih =>
      intro done state recorded
      rw [append_cons]
      exact ih _ _ (recorded.turn queryId)
  apply general queryIds []
  refine ⟨?_, ?_, ?_, ?_⟩
  · exact forall_mem_nil _
  · intro queryId
    simp
  · exact forall_mem_nil _
  · exact fun _ _ found => nomatch found

/-- If every turn is served, then every query is answered.  If no plan has an empty id, the
converse holds, too. -/
theorem executeRedpathQuery_answers_iff_served
    (engine : TransportArbiterEngine World Interface Time Duration)
    (options : RedpathQueryOptions) (queryIds : List Text) (arbiter : Arbiter Interface Time)
    (world : World) :
    let final := executeRedpathQuery engine options queryIds arbiter world
    ((∀ record ∈ final.records, record.Served engine options) ->
      EveryQueryAnswered engine queryIds final) ∧
    (engine.idToRedpathQueryPlans.lookup [] = none ->
      EveryQueryAnswered engine queryIds final ->
        ∀ record ∈ final.records, record.Served engine options) := by
  intro final
  have recorded : Recorded engine options queryIds final :=
    executeRedpathQuery_recorded queryIds arbiter world
  constructor
  · intro served
    have keyed : ∀ record ∈ final.records,
        record.key = record.queryId ∧ record.Answers record.entry :=
      fun record member => (recorded.sound record member).key_of_served (served record member)
    constructor
    · intro key
      rw [<- recorded.turns]
      constructor
      · intro found
        rcases Option.isSome_iff_exists.mp found with ⟨entry, isEntry⟩
        rcases recorded.entries key entry isEntry with ⟨record, member, same, -⟩
        exact ⟨record, member, (keyed record member).1.symm.trans same⟩
      · rintro ⟨record, member, rfl⟩
        rw [<- (keyed record member).1]
        exact recorded.keys record member
    · intro key entry found
      rcases recorded.entries key entry found with ⟨record, member, same, rfl⟩
      exact ⟨record, member, (keyed record member).1.symm.trans same, (keyed record member).2⟩
  · intro unnamed answered
    have ran : ∀ record ∈ final.records, record.locals.results ≠ [] := by
      intro record member unrun
      have found := recorded.keys record member
      rw [(recorded.sound record member).key_of_unrun unrun] at found
      have planned := ((answered.keys []).mp found).2
      rw [unnamed] at planned
      cases planned
    intro record member
    have sound := recorded.sound record member
    refine ⟨?_, sound.ran.mp (ran record member)⟩
    -- The entry of the query is one of its own results, whose id is that of the plan.
    have found := (answered.keys record.queryId).mpr
      ((recorded.turns record.queryId).mp ⟨record, member, rfl⟩)
    rcases Option.isSome_iff_exists.mp found with ⟨entry, isEntry⟩
    rcases recorded.entries _ entry isEntry with ⟨maker, made, isKey, rfl⟩
    rcases answered.entries _ _ isEntry with ⟨other, inside, same, answers⟩
    have soundOther := recorded.sound other inside
    have last := soundOther.follows.getLast? (ran other inside)
    have samePlan : other.plan = record.plan := by
      have planned := soundOther.planned
      rw [same, sound.planned] at planned
      exact (Option.some.inj planned).symm
    rw [QueryRecord.Answers, last] at answers
    calc record.plan.planId = other.locals.resultSingle.queryId := by
          rw [<- samePlan]
          exact (soundOther.follows.named _ (List.mem_of_getLast? last)).symm
      _ = maker.entry.queryResult.queryId := by
          rw [answers]
          exact (processMetrics_queryId _ _ _).symm
      _ = maker.key := processMetrics_queryId _ _ _
      _ = record.queryId := isKey

end

/-- A plan whose queries always succeed. -/
def emptyPlan (planId : Text) : QueryPlan Nat Nat :=
  ⟨planId, fun _ _ world => (.start planId, world), fun _ _ _ => rfl⟩

def oneQueryEngine (stubFactory : PriorityLabel -> Nat -> StatusOr Nat × Nat) :
    TransportArbiterEngine Nat Nat Nat Nat :=
  ⟨⟨[(text "q", emptyPlan (text "q"))], by decide⟩, ⟨.failover, none, 5⟩, by decide,
    ⟨id, Nat.succ, stubFactory⟩, false, false⟩

def plainOptions : RedpathQueryOptions := ⟨false, .empty, .unknown⟩

theorem executeRedpathQuery_answers_one :
    EveryQueryAnswered (oneQueryEngine fun _ world => (.ok world, world)) [text "q"]
      (executeRedpathQuery (oneQueryEngine fun _ world => (.ok world, world)) plainOptions
        [text "q"] ⟨none, .unknown, 0⟩ 0) := by
  apply (executeRedpathQuery_answers_iff_served _ _ _ _ _).1
  intro record member
  rw [List.mem_singleton.mp member]
  exact ⟨rfl, rfl⟩

/-- Without an interface the only entry has no id, and the query has none. -/
theorem executeRedpathQuery_without_interface :
    let final := executeRedpathQuery
      (oneQueryEngine fun _ world => (.error ⟨.unavailable, []⟩, world)) plainOptions
      [text "q"] ⟨none, .unknown, 0⟩ 0
    final.queryIdToResult.lookup (text "q") = none ∧
      (final.queryIdToResult.lookup []).isSome = true ∧
      ¬ EveryQueryAnswered (oneQueryEngine fun _ world => (.error ⟨.unavailable, []⟩, world))
        [text "q"] final := by
  refine ⟨rfl, rfl, ?_⟩
  intro answered
  have found := (answered.keys (text "q")).mpr ⟨.head _, rfl⟩
  cases found

end Ecclesia.Engine
