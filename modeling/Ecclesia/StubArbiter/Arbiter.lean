import Ecclesia.Absl.Status
import Ecclesia.Library.Assoc

namespace Ecclesia.StubArbiter

/-!
# The arbiter of the stubs

An arbiter holds one stub at a time and runs the callbacks of its users on it.  A failover
arbiter prefers the primary stub.  When a callback fails with one of the failover codes, it
makes the other stub and tries that one in the same call; a secondary stub that was needed
stays in use for a while.  A manual arbiter uses the stub that its user names.  The
definitions follow `arbiter.h`.  The clock, the factory of the stubs and the callbacks
read and change a world of which nothing else is known.
-/

/-- `StubArbiterInfo::Type` -/
inductive Policy where
  | manual
  | failover
  | unknown
deriving DecidableEq

/-- `StubArbiterInfo::PriorityLabel` -/
inductive PriorityLabel where
  | primary
  | secondary
  | unknown
deriving DecidableEq

/-- The labels that the loop of `Failover` goes through, up to the unknown label. -/
def PriorityLabel.onwards : PriorityLabel -> List PriorityLabel
  | .primary => [.primary, .secondary]
  | .secondary => [.secondary]
  | .unknown => []

/-- `StubArbiterInfo::EndpointMetrics` -/
structure EndpointMetrics (Time : Type) where
  status : Status
  startTime : Time
  endTime : Time

/-- `StubArbiterInfo::Metrics` -/
structure Metrics (Time : Type) where
  endpointMetrics : HashMap PriorityLabel (EndpointMetrics Time)
  overallStatus : Status
  arbiterStartTime : Time
  arbiterEndTime : Time

/-- `StubArbiterInfo::Config` -/
structure Config (Duration : Type) where
  type : Policy
  customFailoverCode : Option (List StatusCode)
  refresh : Duration

namespace Config

variable {Duration : Type}

/-- The codes after which another stub is tried. -/
def failoverCodes (config : Config Duration) : List StatusCode :=
  config.customFailoverCode.getD [.deadlineExceeded, .unavailable, .resourceExhausted]

/-- An attempt that ends with this status is not followed by another one. -/
def settles (config : Config Duration) (status : Status) : Bool :=
  status.isOk || !config.failoverCodes.contains status.code

end Config

/-- `StubArbiter`.  A stub stands for a pointer to it that is not null: the factory either
fails or makes one. -/
structure Arbiter (Stub Time : Type) where
  activeStub : Option Stub
  activeStubLabel : PriorityLabel
  freshnessTime : Time

/-- The time that the clock shows, what happens while it is read, and a factory. -/
structure Surroundings (World Stub Time : Type) where
  time : World -> Time
  pass : World -> World
  stubFactory : PriorityLabel -> World -> StatusOr Stub × World

/-- What `Execute` runs on a stub.  It is given a pointer, which can be null. -/
abbrev Callback (World Stub : Type) :=
  Option Stub -> PriorityLabel -> World -> Status × World

/-- An attempt of a call: its label, when it begins, what the callback is given, and how it ends. -/
structure Attempt (Stub Time : Type) where
  label : PriorityLabel
  time : Time
  called : Option (Option Stub × Text)
  status : Status

/-- The course of a call of `Execute`, with what is kept for the proofs. -/
structure Execution (World Stub Time : Type) where
  arbiter : Arbiter Stub Time
  world : World
  metrics : Metrics Time
  stubPath : Text
  attempts : List (Attempt Stub Time)
  activated : Option Time

variable {World Stub Time Duration : Type} (surroundings : Surroundings World Stub Time)
  (config : Config Duration)

/-- The call starts and its metrics are empty. -/
def Execution.start [Inhabited Time] (arbiter : Arbiter Stub Time) (world : World) :
    Execution World Stub Time where
  arbiter := arbiter
  world := surroundings.pass world
  metrics := ⟨.empty, .okStatus, surroundings.time world, default⟩
  stubPath := []
  attempts := []
  activated := none

/-- The call ends, and `MetricsWrapper` notes the time. -/
def Execution.finish (execution : Execution World Stub Time) : Execution World Stub Time :=
  { execution with
    world := surroundings.pass execution.world
    metrics := { execution.metrics with arbiterEndTime := surroundings.time execution.world } }

variable (func : Callback World Stub)

/-- `execute_func`, in an attempt that has begun at some time.  Its status becomes the
status of the call. -/
def executeFunc (stub : Stub) (label : PriorityLabel) (begun : Time)
    (execution : Execution World Stub Time) : Execution World Stub Time :=
  let called := func (some stub) label (surroundings.pass execution.world)
  { execution with
    world := surroundings.pass called.2
    metrics := { execution.metrics with
      endpointMetrics := execution.metrics.endpointMetrics.assign label
        ⟨called.1, surroundings.time execution.world, surroundings.time called.2⟩
      overallStatus := called.1 }
    attempts := execution.attempts ++
      [⟨label, begun, some (some stub, execution.stubPath), called.1⟩] }

@[simp] lemma executeFunc_arbiter (stub : Stub) (label : PriorityLabel) (begun : Time)
    (execution : Execution World Stub Time) :
    (executeFunc surroundings func stub label begun execution).arbiter = execution.arbiter :=
  rfl

/-- The factory has failed for a label. -/
def noteRefusal [Inhabited Time] (label : PriorityLabel) (begun : Time) (status : Status)
    (execution : Execution World Stub Time) : Execution World Stub Time :=
  let before := (execution.metrics.endpointMetrics.lookup label).getD ⟨.okStatus, default, default⟩
  { execution with
    metrics := { execution.metrics with
      endpointMetrics := execution.metrics.endpointMetrics.assign label
        { before with status := status }
      overallStatus := status }
    attempts := execution.attempts ++ [⟨label, begun, none, status⟩] }

/-- A stub becomes the active one. -/
def activate (stub : Stub) (label : PriorityLabel) (execution : Execution World Stub Time) :
    Execution World Stub Time :=
  { execution with
    arbiter := ⟨some stub, label, surroundings.time execution.world⟩
    activated := some (surroundings.time execution.world)
    world := surroundings.pass execution.world }

/-- The active stub is dropped. -/
def Arbiter.clear (arbiter : Arbiter Stub Time) : Arbiter Stub Time :=
  { arbiter with activeStub := none, activeStubLabel := .unknown }

/-- A stub that has failed is dropped, unless another one has become active meanwhile. -/
def Arbiter.drop [DecidableEq Stub] (arbiter : Arbiter Stub Time) (stub : Stub) :
    Arbiter Stub Time :=
  if arbiter.activeStub = some stub then arbiter.clear else arbiter

lemma Arbiter.drop_of_active [DecidableEq Stub] {arbiter : Arbiter Stub Time} {stub : Stub}
    (active : arbiter.activeStub = some stub) : arbiter.drop stub = arbiter.clear :=
  if_pos active

variable [LinearOrder Time] [HAdd Time Duration Time] [Inhabited Time] [DecidableEq Stub]

/-- The active stub may be used at some time: it is young enough, or the primary one. -/
def Config.allows (arbiter : Arbiter Stub Time) (now : Time) : Bool :=
  decide (now < arbiter.freshnessTime + config.refresh) ||
    decide (arbiter.activeStubLabel = .primary)

/-- The active stub, its label and the name of the path, if `Failover` may use the stub. -/
def usableStub (execution : Execution World Stub Time) :
    Option (Stub × PriorityLabel × Text) × Execution World Stub Time :=
  match execution.arbiter.activeStub with
  | none => (none, execution)
  | some stub =>
    let label := execution.arbiter.activeStubLabel
    let read := { execution with world := surroundings.pass execution.world }
    match config.allows execution.arbiter (surroundings.time execution.world) with
    | true =>
      (some (stub, label, if label = .primary then text "primary" else text "sticky"), read)
    | false => (none, read)

/-- The name of the path of an attempt for which no name was chosen before. -/
def pathFor (stubPath : Text) (label : PriorityLabel) : Text :=
  if stubPath.isEmpty then (if label = .primary then text "primary" else text "fallback")
  else stubPath

/-- The loop of `Failover` over the labels. -/
def tryLabels (func : Callback World Stub) (attempted : PriorityLabel) :
    List PriorityLabel -> Execution World Stub Time -> Execution World Stub Time
  | [], execution => execution
  | label :: rest, execution =>
    if label = attempted then tryLabels func attempted rest execution
    else
      let begun := surroundings.time execution.world
      let made := surroundings.stubFactory label execution.world
      match made.1 with
      | .error status =>
        let refused := noteRefusal label begun status { execution with world := made.2 }
        if config.failoverCodes.contains status.code then
          tryLabels func attempted rest refused
        else refused
      | .ok stub =>
        let called := executeFunc surroundings func stub label begun { execution with
          world := made.2
          stubPath := pathFor execution.stubPath label }
        if config.settles called.metrics.overallStatus then
          activate surroundings stub label called
        else tryLabels func attempted rest { called with stubPath := [] }

def failover (initialStub : PriorityLabel) (arbiter : Arbiter Stub Time) (world : World)
    : Execution World Stub Time :=
  let usable := usableStub surroundings config (.start surroundings arbiter world)
  match usable.1 with
  | none =>
    .finish surroundings (tryLabels surroundings config func .unknown initialStub.onwards usable.2)
  | some (stub, label, path) =>
    let called := executeFunc surroundings func stub label (surroundings.time usable.2.world)
      { usable.2 with stubPath := path }
    if config.settles called.metrics.overallStatus then .finish surroundings called
    else
      .finish surroundings (tryLabels surroundings config func label initialStub.onwards
        { called with
          arbiter := called.arbiter.drop stub
          stubPath := if label = .secondary then text "sticky-fallback" else [] })

/-- The stub that a manual arbiter uses for a label, or the status of the factory. -/
def manualStub (label : PriorityLabel) (execution : Execution World Stub Time) :
    StatusOr (Option Stub) × Execution World Stub Time :=
  if execution.arbiter.activeStubLabel = label then (.ok execution.arbiter.activeStub, execution)
  else
    let begun := surroundings.time execution.world
    let made := surroundings.stubFactory label execution.world
    let cleared := { execution with arbiter := execution.arbiter.clear, world := made.2 }
    match made.1 with
    | .error status =>
      (.error status, { cleared with
        metrics := { cleared.metrics with overallStatus := status }
        attempts := cleared.attempts ++ [⟨label, begun, none, status⟩] })
    | .ok stub => (.ok (some stub), activate surroundings stub label cleared)

/-- `Manual`.  The callback is given a null pointer when the label is the unknown one and no
stub is active. -/
def manual (label : PriorityLabel) (arbiter : Arbiter Stub Time) (world : World)
    : Execution World Stub Time :=
  let chosen := manualStub surroundings label (.start surroundings arbiter world)
  match chosen.1 with
  | .error _ => .finish surroundings chosen.2
  | .ok stub =>
    let begun := surroundings.time chosen.2.world
    let called := func stub label (surroundings.pass chosen.2.world)
    .finish surroundings { chosen.2 with
      world := surroundings.pass called.2
      metrics := { chosen.2.metrics with
        endpointMetrics := chosen.2.metrics.endpointMetrics.assign label
          ⟨called.1, begun, surroundings.time called.2⟩
        overallStatus := called.1 }
      attempts := chosen.2.attempts ++ [⟨label, begun, some (stub, []), called.1⟩] }

def execute (known : config.type ≠ .unknown) (func : Callback World Stub)
    (initialStub : PriorityLabel) (arbiter : Arbiter Stub Time) (world : World) :
    Execution World Stub Time :=
  match type : config.type with
  | .manual => manual surroundings func initialStub arbiter world
  | .failover => failover surroundings config func initialStub arbiter world
  | .unknown => absurd type known

/-- The constructor, which asks the factory for the primary stub, and when that stub has
become active. -/
def construct (world : World) : Arbiter Stub Time × Option Time × World :=
  let made := surroundings.stubFactory .primary world
  match made.1 with
  | .error _ => (⟨none, .unknown, default⟩, none, made.2)
  | .ok stub =>
    (⟨some stub, .primary, surroundings.time made.2⟩, some (surroundings.time made.2),
      surroundings.pass made.2)

def create (world : World) : StatusOr (Arbiter Stub Time × Option Time × World) :=
  match config.type with
  | .manual | .failover => .ok (construct surroundings world)
  | .unknown => .error (.invalidArgument (text "Unknown StubArbiterType"))

end Ecclesia.StubArbiter
