import Ecclesia.StubArbiter.Arbiter

namespace Ecclesia.StubArbiter

/-!
# When a callback is called

A call of `Execute` can end without having called its callback: no stub is usable, and the
factory makes none.  Whether it does is decided by the arbiter and the factory alone.  What
a callback leaves in the world is followed through a whole call by two rules, one for
properties that every part of a call keeps and one for a mark that only the callback sets.
-/

variable {World Stub Time Duration : Type}

section

variable (surroundings : Surroundings World Stub Time) (config : Config Duration)

/-- The factory makes a stub for one of the labels, and fails with a failover code for those
before it. -/
def offers : List PriorityLabel -> World -> Bool
  | [], _ => false
  | label :: rest, world =>
    let made := surroundings.stubFactory label world
    match made.1 with
    | .ok _ => true
    | .error status =>
      config.failoverCodes.contains status.code && offers rest made.2

variable [LinearOrder Time] [HAdd Time Duration Time] [Inhabited Time]

def serves (initialStub : PriorityLabel) (arbiter : Arbiter Stub Time) (world : World) : Bool :=
  match config.type with
  | .manual =>
    decide (arbiter.activeStubLabel = initialStub) ||
      (surroundings.stubFactory initialStub (surroundings.pass world)).1.isOk
  | .failover =>
    let usable := usableStub surroundings config (.start surroundings arbiter world)
    usable.1.isSome || offers surroundings config initialStub.onwards usable.2.world
  | .unknown => false

end

section

variable {surroundings : Surroundings World Stub Time}
  {config : Config Duration} {func : Callback World Stub} {property : World -> Prop}

/-- The clock, the factory and the callback keep a property of the world. -/
structure Keeps (surroundings : Surroundings World Stub Time) (func : Callback World Stub)
    (property : World -> Prop) : Prop where
  passing : ∀ world, property world -> property (surroundings.pass world)
  making : ∀ label world, property world -> property (surroundings.stubFactory label world).2
  calling : ∀ stub label world, property world -> property (func stub label world).2

variable {execution : Execution World Stub Time}

section

variable (keeps : Keeps surroundings func property)

include keeps

lemma Keeps.executeFunc (stub : Stub)
    (label : PriorityLabel) (begun : Time) (holds : property execution.world) :
    property (executeFunc surroundings func stub label begun execution).world :=
  keeps.passing _ (keeps.calling _ _ _ (keeps.passing _ holds))

lemma Keeps.tryLabels [Inhabited Time]
    (attempted : PriorityLabel) (labels : List PriorityLabel) (holds : property execution.world) :
    property (tryLabels surroundings config func attempted labels execution).world := by
  induction labels generalizing execution with
  | nil => exact holds
  | cons label rest ih =>
    unfold StubArbiter.tryLabels
    split_ifs with skipped
    · exact ih holds
    · have made := keeps.making label execution.world holds
      cases outcome : (surroundings.stubFactory label execution.world).1 with
      | error status =>
        simp only [outcome]
        split_ifs with again
        · exact ih made
        · exact made
      | ok stub =>
        simp only [outcome]
        split_ifs with settled
        · exact keeps.passing _ (keeps.executeFunc stub label _ made)
        · apply ih
          exact keeps.executeFunc stub label (surroundings.time execution.world) made

lemma Keeps.manualStub (label : PriorityLabel) (holds : property execution.world) :
    property (manualStub surroundings label execution).2.world := by
  unfold StubArbiter.manualStub
  split_ifs with present
  · exact holds
  · have made := keeps.making label execution.world holds
    cases outcome : (surroundings.stubFactory label execution.world).1 with
    | error status =>
      simp only [outcome]
      exact made
    | ok stub =>
      simp only [outcome]
      exact keeps.passing _ made

end

variable {world : World}

lemma Keeps.manual [Inhabited Time] (keeps : Keeps surroundings func property)
    (label : PriorityLabel) (arbiter : Arbiter Stub Time)
    (holds : property world) : property (manual surroundings func label arbiter world).world := by
  have chosen : property (StubArbiter.manualStub surroundings label
      (.start surroundings arbiter world)).2.world :=
    keeps.manualStub label (keeps.passing _ holds)
  unfold StubArbiter.manual
  cases outcome : (StubArbiter.manualStub surroundings label
      (.start surroundings arbiter world)).1 with
  | error status =>
    simp only [outcome]
    exact keeps.passing _ chosen
  | ok stub =>
    simp only [outcome]
    exact keeps.passing _ (keeps.passing _ (keeps.calling _ _ _ (keeps.passing _ chosen)))

variable [LinearOrder Time] [HAdd Time Duration Time]

lemma Keeps.usableStub (keeps : Keeps surroundings func property)
    (holds : property execution.world) :
    property (usableStub surroundings config execution).2.world := by
  unfold StubArbiter.usableStub
  cases execution.arbiter.activeStub with
  | none => exact holds
  | some stub =>
    cases usable : config.allows execution.arbiter (surroundings.time execution.world) with
    | true =>
      exact keeps.passing _ holds
    | false =>
      exact keeps.passing _ holds

variable [Inhabited Time] [DecidableEq Stub]

lemma Keeps.failover (keeps : Keeps surroundings func property) (initialStub : PriorityLabel)
    (arbiter : Arbiter Stub Time) (holds : property world) :
    property (failover surroundings config func initialStub arbiter world).world := by
  have read : property (StubArbiter.usableStub surroundings config
      (.start surroundings arbiter world)).2.world :=
    keeps.usableStub (keeps.passing _ holds)
  unfold StubArbiter.failover
  cases outcome : (StubArbiter.usableStub surroundings config
      (.start surroundings arbiter world)).1 with
  | none =>
    simp only [outcome]
    exact keeps.passing _ (keeps.tryLabels _ _ read)
  | some usable =>
    rcases usable with ⟨stub, label, path⟩
    simp only [outcome]
    split
    · exact keeps.passing _ (keeps.executeFunc stub label _ read)
    · refine keeps.passing _ (keeps.tryLabels _ _ ?_)
      exact keeps.passing _ (keeps.calling _ _ _ (keeps.passing _ read))

lemma Keeps.execute (keeps : Keeps surroundings func property) (known : config.type ≠ .unknown)
    (initialStub : PriorityLabel) (arbiter : Arbiter Stub Time) (holds : property world) :
    property (execute surroundings config known func initialStub arbiter world).world := by
  unfold StubArbiter.execute
  split
  · exact keeps.manual initialStub arbiter holds
  · exact keeps.failover initialStub arbiter holds
  · next unknown => exact absurd unknown known

end

variable {surroundings : Surroundings World Stub Time}
  {config : Config Duration} {func : Callback World Stub} {mark : World -> Prop}

/-- The callback sets a mark in the world; the clock and the factory do not. -/
structure Marks (surroundings : Surroundings World Stub Time) (func : Callback World Stub)
    (mark : World -> Prop) : Prop where
  passing : ∀ world, mark (surroundings.pass world) ↔ mark world
  making : ∀ label world, mark (surroundings.stubFactory label world).2 ↔ mark world
  calling : ∀ stub label world, mark (func stub label world).2

lemma Marks.keeps (marks : Marks surroundings func mark) : Keeps surroundings func mark where
  passing := fun world => (marks.passing world).mpr
  making := fun label world => (marks.making label world).mpr
  calling := fun stub label world _ => marks.calling stub label world

lemma Marks.tryLabels [Inhabited Time] (marks : Marks surroundings func mark)
    {attempted : PriorityLabel} {labels : List PriorityLabel} (fresh : attempted ∉ labels)
    {execution : Execution World Stub Time} (unmarked : ¬ mark execution.world) :
    mark (tryLabels surroundings config func attempted labels execution).world ↔
      offers surroundings config labels execution.world = true := by
  induction labels generalizing execution with
  | nil => exact ⟨fun marked => absurd marked unmarked, fun offered => nomatch offered⟩
  | cons label rest ih =>
    have other : ¬ label = attempted := fun same => fresh (same ▸ (.head _))
    have freshRest : attempted ∉ rest := fun inside => fresh (.tail _ inside)
    have made : ¬ mark (surroundings.stubFactory label execution.world).2 := by
      rwa [marks.making]
    unfold StubArbiter.tryLabels offers
    rw [if_neg other]
    cases outcome : (surroundings.stubFactory label execution.world).1 with
    | error status =>
      simp only [outcome]
      cases again : config.failoverCodes.contains status.code with
      | true =>
        exact ih freshRest made
      | false =>
        exact ⟨fun marked => absurd marked made, fun offered => nomatch offered⟩
    | ok stub =>
      simp only [outcome, iff_true]
      split
      · exact (marks.passing _).mpr ((marks.passing _).mpr (marks.calling _ _ _))
      · exact marks.keeps.tryLabels _ _ ((marks.passing _).mpr (marks.calling _ _ _))

variable {world : World}

lemma Marks.manual [Inhabited Time] (marks : Marks surroundings func mark) (label : PriorityLabel)
    (arbiter : Arbiter Stub Time) (unmarked : ¬ mark world) :
    mark (manual surroundings func label arbiter world).world ↔
      (decide (arbiter.activeStubLabel = label) ||
        (surroundings.stubFactory label (surroundings.pass world)).1.isOk) = true := by
  unfold StubArbiter.manual manualStub Execution.start
  by_cases present : arbiter.activeStubLabel = label
  · simp only [present, decide_true, Bool.true_or, iff_true]
    exact (marks.passing _).mpr ((marks.passing _).mpr (marks.calling _ _ _))
  · simp only [present, if_false]
    cases outcome : (surroundings.stubFactory label (surroundings.pass world)).1 with
    | error status =>
      constructor
      · intro marked
        rw [Execution.finish, marks.passing, marks.making, marks.passing] at marked
        exact absurd marked unmarked
      · intro made
        cases made
    | ok stub =>
      refine ⟨fun _ => rfl, fun _ => ?_⟩
      exact (marks.passing _).mpr ((marks.passing _).mpr (marks.calling _ _ _))

variable [LinearOrder Time] [HAdd Time Duration Time]

lemma Marks.usableStub (marks : Marks surroundings func mark)
    (execution : Execution World Stub Time) :
    mark (usableStub surroundings config execution).2.world ↔ mark execution.world := by
  unfold StubArbiter.usableStub
  cases execution.arbiter.activeStub with
  | none => rfl
  | some stub =>
    cases usable : config.allows execution.arbiter (surroundings.time execution.world) with
    | true =>
      exact marks.passing _
    | false =>
      exact marks.passing _

lemma unknown_notMem_onwards (label : PriorityLabel) : .unknown ∉ label.onwards := by
  cases label with
  | primary => decide
  | secondary => decide
  | unknown => decide

variable [Inhabited Time] [DecidableEq Stub]

lemma Marks.failover (marks : Marks surroundings func mark) (initialStub : PriorityLabel)
    (arbiter : Arbiter Stub Time) (unmarked : ¬ mark world) :
    mark (failover surroundings config func initialStub arbiter world).world ↔
      ((StubArbiter.usableStub surroundings config (.start surroundings arbiter world)).1.isSome ||
        offers surroundings config initialStub.onwards
          (StubArbiter.usableStub surroundings config
            (.start surroundings arbiter world)).2.world) = true := by
  have read : ¬ mark (StubArbiter.usableStub surroundings config
      (.start surroundings arbiter world)).2.world := by
    rw [marks.usableStub, Execution.start, marks.passing]
    exact unmarked
  unfold StubArbiter.failover
  cases outcome : (StubArbiter.usableStub surroundings config
      (.start surroundings arbiter world)).1 with
  | none =>
    simp only [outcome]
    rw [Execution.finish, marks.passing]
    exact marks.tryLabels (unknown_notMem_onwards initialStub) read
  | some usable =>
    rcases usable with ⟨stub, label, path⟩
    simp only [outcome]
    refine ⟨fun _ => rfl, fun _ => ?_⟩
    have called := (marks.passing _).mpr (marks.calling (some stub) label
      (surroundings.pass (StubArbiter.usableStub surroundings config
        (.start surroundings arbiter world)).2.world))
    split
    · exact (marks.passing _).mpr called
    · exact (marks.passing _).mpr (marks.keeps.tryLabels _ _ called)

lemma Marks.execute (marks : Marks surroundings func mark) (known : config.type ≠ .unknown)
    (initialStub : PriorityLabel) (arbiter : Arbiter Stub Time) (unmarked : ¬ mark world) :
    mark (execute surroundings config known func initialStub arbiter world).world ↔
      serves surroundings config initialStub arbiter world = true := by
  unfold StubArbiter.execute serves
  split
  · next isManual =>
      simp only [isManual]
      exact marks.manual initialStub arbiter unmarked
  · next isFailover =>
      simp only [isFailover]
      exact marks.failover initialStub arbiter unmarked
  · next unknown => exact absurd unknown known

end Ecclesia.StubArbiter
