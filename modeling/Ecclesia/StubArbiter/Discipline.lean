import Ecclesia.StubArbiter.Arbiter

namespace Ecclesia.StubArbiter

open List

/-!
# Whole runs of a failover arbiter

A run is any sequence of calls, with any stubs, callbacks and times between them; only the
clock does not go back.  In every state of a run a stub is active just if it has a label.
In every call each label is tried at most once, the last attempt decides the status, and a
secondary stub is left for the primary one only when it is old or has failed in that call.
-/

variable {World Stub Time Duration : Type}

section

/-- The active stub is null just if its label is unknown. -/
def Arbiter.Labelled (arbiter : Arbiter Stub Time) : Prop :=
  arbiter.activeStub = none ↔ arbiter.activeStubLabel = .unknown

/-- What holds of the arbiter between two calls. -/
structure Sound (arbiter : Arbiter Stub Time) (since : Option Time) : Prop where
  labelled : arbiter.Labelled
  active : arbiter.activeStub ≠ none -> since = some arbiter.freshnessTime

/-- The status of the call is that of its last attempt. -/
def Execution.Reports (execution : Execution World Stub Time) : Prop :=
  ∀ attempt, execution.attempts.getLast? = some attempt ->
    execution.metrics.overallStatus = attempt.status

lemma reports_of_append {execution : Execution World Stub Time} {before : List (Attempt Stub Time)}
    {attempt : Attempt Stub Time} (attempts : execution.attempts = before ++ [attempt])
    (status : execution.metrics.overallStatus = attempt.status) : execution.Reports := by
  intro last isLast
  rw [attempts, getLast?_concat] at isLast
  cases isLast
  exact status

lemma once_of_nodup {attempts : List (Attempt Stub Time)}
    (distinct : (attempts.map Attempt.label).Nodup) :
    ((attempts.filter fun attempt => attempt.called.isSome).map Attempt.label).Nodup :=
  distinct.sublist (filter_sublist.map _)

lemma construct_sound [Inhabited Time]
    {surroundings : Surroundings World Stub Time} (world : World) :
    Sound (construct surroundings world).1 (construct surroundings world).2.1 := by
  unfold construct
  cases made : (surroundings.stubFactory .primary world).1 with
  | error status =>
    simp only [made]
    exact ⟨⟨fun _ => rfl, fun _ => rfl⟩, fun isActive => absurd rfl isActive⟩
  | ok stub =>
    simp only [made]
    exact ⟨⟨fun null => (nomatch null), fun unlabelled => (nomatch unlabelled)⟩, fun _ => rfl⟩

variable [LinearOrder Time] [HAdd Time Duration Time]

/-- The clock does not go back while it is read or a stub is made. -/
structure Surroundings.Monotone (surroundings : Surroundings World Stub Time) : Prop where
  passing : ∀ world, surroundings.time world <= surroundings.time (surroundings.pass world)
  making : ∀ label world,
    surroundings.time world <= surroundings.time (surroundings.stubFactory label world).2

/-- The clock does not go back during a callback. -/
def RunsForward (surroundings : Surroundings World Stub Time) (func : Callback World Stub) :
    Prop :=
  ∀ stub label world, surroundings.time world <= surroundings.time (func stub label world).2

variable (surroundings : Surroundings World Stub Time) (config : Config Duration)

/-- An attempt ends with a failover code. -/
def Attempt.Fails (attempt : Attempt Stub Time) : Prop :=
  attempt.status.isOk = false ∧ attempt.status.code ∈ config.failoverCodes

/-- What a call keeps to, in the state of the arbiter before it. -/
structure Disciplined (arbiter : Arbiter Stub Time) (since : Option Time)
    (execution : Execution World Stub Time) : Prop where
  once : ((execution.attempts.filter fun attempt => attempt.called.isSome).map Attempt.label).Nodup
  reports : execution.Reports
  sticky : arbiter.activeStubLabel = .secondary -> ∀ before attempt after,
    execution.attempts = before ++ attempt :: after -> attempt.label = .primary ->
      (∃ active, since = some active ∧ active + config.refresh <= attempt.time) ∨
      (∃ earlier ∈ before, earlier.label = .secondary ∧
        earlier.called.isSome = true ∧ earlier.Fails config)

lemma settles_eq_false_iff {status : Status} : config.settles status = false ↔
    status.isOk = false ∧ status.code ∈ config.failoverCodes := by
  simp [Config.settles]

/-- What the loop over the labels adds to a call. -/
structure Tries (attempted : PriorityLabel) (labels : List PriorityLabel)
    (execution final : Execution World Stub Time) (tried : List (Attempt Stub Time)) : Prop where
  attempts : final.attempts = execution.attempts ++ tried
  within : (tried.map Attempt.label).Sublist (labels.filter fun label => label ≠ attempted)
  later : ∀ attempt ∈ tried, surroundings.time execution.world <= attempt.time
  reports : execution.Reports -> final.Reports
  active : (final.arbiter = execution.arbiter ∧ final.activated = execution.activated) ∨
    ∃ stub label time, label ∈ labels ∧ final.arbiter = ⟨some stub, label, time⟩ ∧
      final.activated = some time

variable {surroundings config}

lemma Tries.nothing (attempted : PriorityLabel) (labels : List PriorityLabel)
    (execution : Execution World Stub Time) :
    Tries surroundings attempted labels execution execution [] where
  attempts := (append_nil _).symm
  within := nil_sublist _
  later := forall_mem_nil _
  reports := id
  active := .inl ⟨rfl, rfl⟩

variable {execution final : Execution World Stub Time} {tried : List (Attempt Stub Time)}

lemma Tries.skip {attempted label : PriorityLabel} {labels : List PriorityLabel}
    (tries : Tries surroundings attempted labels execution final tried) :
    Tries surroundings attempted (label :: labels) execution final tried where
  attempts := tries.attempts
  within := tries.within.trans ((sublist_cons_self label labels).filter _)
  later := tries.later
  reports := tries.reports
  active := by
    rcases tries.active with same | ⟨stub, other, time, inside, arbiter, activated⟩
    · exact .inl same
    · exact .inr ⟨stub, other, time, .tail _ inside, arbiter, activated⟩

lemma Tries.cons {attempted label : PriorityLabel} {labels : List PriorityLabel}
    {execution middle final : Execution World Stub Time} {attempt : Attempt Stub Time}
    {tried : List (Attempt Stub Time)}
    (tries : Tries surroundings attempted labels middle final tried) (other : label ≠ attempted)
    (isFor : attempt.label = label) (begins : surroundings.time execution.world <= attempt.time)
    (forward : surroundings.time execution.world <= surroundings.time middle.world)
    (attempts : middle.attempts = execution.attempts ++ [attempt])
    (status : middle.metrics.overallStatus = attempt.status)
    (arbiter : middle.arbiter = execution.arbiter)
    (activated : middle.activated = execution.activated) :
    Tries surroundings attempted (label :: labels) execution final (attempt :: tried) where
  attempts := by
    rw [tries.attempts, attempts, append_assoc]
    rfl
  within := by
    rw [map_cons, isFor, filter_cons_of_pos (by simpa using other)]
    exact tries.within.cons_cons label
  later := by
    intro one member
    rcases mem_cons.mp member with rfl | behind
    · exact begins
    · exact le_trans forward (tries.later one behind)
  reports := fun _ => tries.reports (reports_of_append attempts status)
  active := by
    rw [<- arbiter, <- activated]
    rcases tries.active with same | ⟨stub, found, time, inside, isActive, isNoted⟩
    · exact .inl same
    · exact .inr ⟨stub, found, time, .tail _ inside, isActive, isNoted⟩

/-- The end of a call adds nothing. -/
lemma Tries.finish {attempted : PriorityLabel} {labels : List PriorityLabel}
    (tries : Tries surroundings attempted labels execution final tried) :
    Tries surroundings attempted labels execution (final.finish surroundings) tried :=
  ⟨tries.attempts, tries.within, tries.later, tries.reports, tries.active⟩

lemma executeFunc_forward (monotone : surroundings.Monotone) {func : Callback World Stub}
    (forward : RunsForward surroundings func) (stub : Stub) (label : PriorityLabel)
    (begun : Time) (execution : Execution World Stub Time) :
    surroundings.time execution.world <=
      surroundings.time (executeFunc surroundings func stub label begun execution).world := by
  refine le_trans (monotone.passing _) (le_trans (forward _ _ _) (monotone.passing _))

end

section

variable [LinearOrder Time] [HAdd Time Duration Time] {surroundings : Surroundings World Stub Time}

lemma usableStub_cases (config : Config Duration) (monotone : surroundings.Monotone)
    (execution : Execution World Stub Time) :
    (∃ world, usableStub surroundings config execution =
        (none, { execution with world := world }) ∧
      (execution.arbiter.activeStub ≠ none ->
        execution.arbiter.freshnessTime + config.refresh <= surroundings.time world)) ∨
    (∃ stub path world, execution.arbiter.activeStub = some stub ∧
      usableStub surroundings config execution =
        (some (stub, execution.arbiter.activeStubLabel, path),
          { execution with world := world })) := by
  unfold usableStub
  cases active : execution.arbiter.activeStub with
  | none => exact .inl ⟨execution.world, rfl, fun isActive => absurd rfl isActive⟩
  | some stub =>
    cases usable : config.allows execution.arbiter (surroundings.time execution.world) with
    | true =>
      exact .inr ⟨stub, _, _, rfl, rfl⟩
    | false =>
      refine .inl ⟨_, rfl, fun _ => ?_⟩
      rw [Config.allows, Bool.or_eq_false_iff, decide_eq_false_iff_not, not_lt] at usable
      exact le_trans usable.1 (monotone.passing _)

end

section

variable [LinearOrder Time] [Inhabited Time]
  {surroundings : Surroundings World Stub Time} {config : Config Duration}

lemma tryLabels_tries (monotone : surroundings.Monotone) {func : Callback World Stub}
    (forward : RunsForward surroundings func) (attempted : PriorityLabel)
    (labels : List PriorityLabel) (execution : Execution World Stub Time) :
    ∃ tried, Tries surroundings attempted labels execution
      (tryLabels surroundings config func attempted labels execution) tried := by
  induction labels generalizing execution with
  | nil => exact ⟨[], .nothing _ _ _⟩
  | cons label rest ih =>
    unfold tryLabels
    split_ifs with skipped
    · rcases ih execution with ⟨tried, tries⟩
      exact ⟨tried, tries.skip⟩
    · have making := monotone.making label execution.world
      cases made : (surroundings.stubFactory label execution.world).1 with
      | error status =>
        simp only [made]
        split_ifs with again
        · rcases ih (noteRefusal label (surroundings.time execution.world) status
            { execution with
              world := (surroundings.stubFactory label execution.world).2 }) with
            ⟨tried, tries⟩
          exact ⟨_, tries.cons skipped rfl le_rfl making rfl rfl rfl rfl⟩
        · exact ⟨_, (Tries.nothing attempted rest _).cons skipped rfl le_rfl making
            rfl rfl rfl rfl⟩
      | ok stub =>
        simp only [made]
        have running := executeFunc_forward monotone forward stub label
          (surroundings.time execution.world) { execution with
            world := (surroundings.stubFactory label execution.world).2
            stubPath := pathFor execution.stubPath label }
        split_ifs with settled
        · have one := (Tries.nothing attempted rest _).cons skipped
            rfl le_rfl (le_trans making running) rfl rfl rfl rfl
          refine ⟨_, one.attempts, one.within, one.later, one.reports, .inr ?_⟩
          exact ⟨stub, label, _, .head _, rfl, rfl⟩
        · rcases ih { executeFunc surroundings func stub label
            (surroundings.time execution.world) { execution with
              world := (surroundings.stubFactory label execution.world).2
              stubPath := pathFor execution.stubPath label } with stubPath := [] } with
            ⟨tried, tries⟩
          exact ⟨_, tries.cons skipped rfl le_rfl (le_trans making running) rfl rfl rfl rfl⟩

end

section

variable [LinearOrder Time] [HAdd Time Duration Time]

section

variable (surroundings : Surroundings World Stub Time) (config : Config Duration)

/-- The labels are tried; or the active stub settles the call; or it fails, is dropped and the
labels are tried. -/
inductive Course (arbiter : Arbiter Stub Time) (initialStub : PriorityLabel)
    (final : Execution World Stub Time) : Prop where
  | unused {begun : Execution World Stub Time} {tried : List (Attempt Stub Time)}
      (kept : begun.arbiter = arbiter) (untried : begun.attempts = [])
      (inactive : begun.activated = none)
      (old : arbiter.activeStub ≠ none ->
        arbiter.freshnessTime + config.refresh <= surroundings.time begun.world)
      (tries : Tries surroundings .unknown initialStub.onwards begun final tried)
  | settled {first : Attempt Stub Time} (label : first.label = arbiter.activeStubLabel)
      (tried : final.attempts = [first]) (reports : final.Reports)
      (kept : final.arbiter = arbiter) (inactive : final.activated = none)
  | failed {begun : Execution World Stub Time} {first : Attempt Stub Time}
      {tried : List (Attempt Stub Time)} (label : first.label = arbiter.activeStubLabel)
      (called : first.called.isSome = true) (fails : first.Fails config)
      (triedFirst : begun.attempts = [first]) (reports : begun.Reports)
      (dropped : begun.arbiter = arbiter.clear) (inactive : begun.activated = none)
      (tries : Tries surroundings arbiter.activeStubLabel initialStub.onwards begun final tried)

end

variable {surroundings : Surroundings World Stub Time} {config : Config Duration}

lemma onwards_nodup (label : PriorityLabel) : label.onwards.Nodup := by
  cases label with
  | primary => decide
  | secondary => decide
  | unknown => decide

variable {initialStub : PriorityLabel}

lemma ne_unknown_of_mem_onwards {label : PriorityLabel}
    (inside : label ∈ initialStub.onwards) : label ≠ .unknown := by
  rintro rfl
  cases initialStub with
  | primary => exact absurd inside (by decide)
  | secondary => exact absurd inside (by decide)
  | unknown => cases inside

variable {since : Option Time} {final : Execution World Stub Time}

lemma Tries.sound {attempted : PriorityLabel} {execution : Execution World Stub Time}
    {tried : List (Attempt Stub Time)}
    (tries : Tries surroundings attempted initialStub.onwards execution final tried)
    (inactive : execution.activated = none) (sound : Sound execution.arbiter since) :
    Sound final.arbiter (final.activated.or since) := by
  rcases tries.active with ⟨same, noted⟩ | ⟨stub, label, time, inside, isActive, noted⟩
  · rw [same, noted, inactive]
    exact sound
  · rw [isActive, noted]
    refine ⟨?_, fun _ => rfl⟩
    constructor
    · exact fun null => nomatch null
    · exact fun unlabelled => absurd unlabelled (ne_unknown_of_mem_onwards inside)

lemma Course.sound {arbiter : Arbiter Stub Time}
    (course : Course surroundings config arbiter initialStub final)
    (sound : Sound arbiter since) : Sound final.arbiter (final.activated.or since) := by
  cases course with
  | unused kept untried inactive old tries => exact tries.sound inactive (kept ▸ sound)
  | settled label tried reports kept inactive =>
    rw [kept, inactive]
    exact sound
  | failed label called fails triedFirst reports dropped inactive tries =>
    apply tries.sound inactive
    rw [dropped]
    exact ⟨⟨fun _ => rfl, fun _ => rfl⟩, fun isActive => absurd rfl isActive⟩

lemma Course.disciplined {arbiter : Arbiter Stub Time}
    (course : Course surroundings config arbiter initialStub final)
    (sound : Sound arbiter since) : Disciplined config arbiter since final := by
  cases course with
  | @unused begun tried kept untried inactive old tries =>
    have attempts : final.attempts = tried := by rw [tries.attempts, untried, nil_append]
    refine ⟨?_, ?_, ?_⟩
    · rw [attempts]
      exact once_of_nodup (((onwards_nodup initialStub).filter _).sublist tries.within)
    · apply tries.reports
      intro attempt last
      rw [untried] at last
      cases last
    · intro secondary before attempt after split primary
      have isActive : arbiter.activeStub ≠ none := by
        intro null
        have unlabelled := sound.labelled.mp null
        rw [secondary] at unlabelled
        cases unlabelled
      refine .inl ⟨arbiter.freshnessTime, sound.active isActive, ?_⟩
      apply le_trans (old isActive) (tries.later attempt _)
      rw [<- attempts, split]
      simp
  | @settled first label tried reports kept inactive =>
    refine ⟨?_, reports, ?_⟩
    · rw [tried]
      apply once_of_nodup
      exact nodup_singleton _
    · intro secondary before attempt after split primary
      have same : attempt = first := by
        have member : attempt ∈ final.attempts := by rw [split]; simp
        rw [tried] at member
        exact mem_singleton.mp member
      rw [<- same, primary, secondary] at label
      cases label
  | @failed begun first tried label called fails triedFirst reports dropped inactive tries =>
    have attempts : final.attempts = first :: tried := by rw [tries.attempts, triedFirst]; rfl
    refine ⟨?_, tries.reports reports, ?_⟩
    · rw [attempts]
      apply once_of_nodup
      rw [map_cons, nodup_cons]
      refine ⟨fun again => ?_, ((onwards_nodup initialStub).filter _).sublist tries.within⟩
      have kept := (mem_filter.mp (tries.within.subset again)).2
      rw [label] at kept
      simp at kept
    · intro secondary before attempt after split primary
      -- The first attempt is at the secondary stub, so that the primary one comes later.
      cases before with
      | nil =>
        rw [attempts] at split
        cases split
        rw [primary, secondary] at label
        cases label
      | cons one others =>
        rw [attempts] at split
        cases split
        exact .inr ⟨first, .head _, label.trans secondary, called, fails⟩

end

section

variable [LinearOrder Time] [HAdd Time Duration Time] [Inhabited Time] [DecidableEq Stub]

section

variable (surroundings : Surroundings World Stub Time) (config : Config Duration)

/-- The states of a failover arbiter in a run, with the time at which a stub last became
active. -/
inductive Reachable : Arbiter Stub Time -> Option Time -> World -> Prop where
  | constructed (world : World) :
      Reachable (construct surroundings world).1 (construct surroundings world).2.1
        (construct surroundings world).2.2
  | waited {arbiter : Arbiter Stub Time} {since : Option Time} {world later : World}
      (reachable : Reachable arbiter since world)
      (forward : surroundings.time world <= surroundings.time later) :
      Reachable arbiter since later
  | executed {arbiter : Arbiter Stub Time} {since : Option Time} {world : World}
      (reachable : Reachable arbiter since world) (func : Callback World Stub)
      (initialStub : PriorityLabel) (forward : RunsForward surroundings func) :
      Reachable (failover surroundings config func initialStub arbiter world).arbiter
        ((failover surroundings config func initialStub arbiter world).activated.or since)
        (failover surroundings config func initialStub arbiter world).world

end

variable {surroundings : Surroundings World Stub Time} {config : Config Duration}

lemma failover_course (monotone : surroundings.Monotone) {func : Callback World Stub}
    (forward : RunsForward surroundings func) (initialStub : PriorityLabel)
    (arbiter : Arbiter Stub Time) (world : World) :
    Course surroundings config arbiter initialStub
      (failover surroundings config func initialStub arbiter world) := by
  unfold failover
  rcases usableStub_cases config monotone (.start surroundings arbiter world) with
    ⟨later, unusable, old⟩ | ⟨stub, path, later, active, usable⟩
  · rw [unusable]
    rcases tryLabels_tries monotone forward .unknown initialStub.onwards
      { Execution.start surroundings arbiter world with world := later } with ⟨tried, tries⟩
    refine .unused rfl rfl rfl ?_ tries.finish
    exact old
  · rw [usable]
    simp only
    split
    · exact .settled rfl rfl (reports_of_append rfl rfl) rfl rfl
    · next unsettled =>
        rw [executeFunc_arbiter, Arbiter.drop_of_active active]
        rcases tryLabels_tries monotone forward arbiter.activeStubLabel initialStub.onwards _ with
          ⟨tried, tries⟩
        refine .failed rfl rfl ?_ rfl (reports_of_append rfl rfl) rfl rfl tries.finish
        exact (settles_eq_false_iff config).mp (Bool.eq_false_iff.mpr unsettled)

lemma Reachable.sound (monotone : surroundings.Monotone) {arbiter : Arbiter Stub Time}
    {since : Option Time} {world : World}
    (reachable : Reachable surroundings config arbiter since world) : Sound arbiter since := by
  induction reachable with
  | constructed world => exact construct_sound world
  | waited reachable forward ih => exact ih
  | executed reachable func initialStub forward ih =>
    exact (failover_course monotone forward initialStub _ _).sound ih

end

/-- A world that only counts the time. -/
def countingSurroundings : Surroundings Nat Nat Nat :=
  ⟨id, Nat.succ, fun _ world => (.ok world, world)⟩

/-- A callback that fails on the primary stub. -/
def secondaryOnly : Callback Nat Nat := fun _ label world =>
  (if label = .primary then ⟨.unavailable, []⟩ else .okStatus, world)

def stickyConfig : Config Nat := ⟨.failover, none, 5⟩

end Ecclesia.StubArbiter
