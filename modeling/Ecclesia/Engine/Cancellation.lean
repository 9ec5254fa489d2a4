import Mathlib.Data.List.Count

namespace Ecclesia.Engine

open List

namespace Cancellation

/-!
# Cancellation of queries

`CancelQueryExecution` sets a flag and waits until all executions have ended.  The last
execution signals the condition variable on which the call waits.  The executions are
counted under one mutex and the flag is kept under another, and the wait has no predicate.

The `QueryRouter` and the `QueryEngine` follow the same protocol.  The router tests the
count and signals in the critical section of the decrement.  The engine leaves it first.
A step is one critical section of one call, or the part of one between two accesses to what
the other mutex guards.
-/

inductive Owner where
  | queryRouter
  | queryEngine
deriving DecidableEq

/-- Where a call of `ExecuteQuery` or `ExecuteRedpathQuery` is. -/
inductive Execution where
  /-- It is counted. -/
  | running
  /-- The engine is not counted any more, and tests the count again. -/
  | decremented
  /-- The count was 0: the call signals. -/
  | signalling
  | finished
deriving DecidableEq

/-- Where a call of `CancelQueryExecution` is. -/
inductive Cancel where
  /-- The count was not 0. -/
  | checked
  /-- It has set the flag and holds the mutex. -/
  | cancelling
  | waiting
  /-- It was woken and has to get the mutex back. -/
  | woken
  /-- The router has reset the flag and holds the mutex until its threads have ended. -/
  | joining
  | returned
deriving DecidableEq

/-- The members of a router or an engine, with all calls. -/
structure State where
  executeRefCount : Int
  queryCancellationState : Bool
  executions : List Execution
  cancels : List Cancel

def State.start : State := ⟨0, false, [], []⟩

/-- The router signals with the mutex of the count. -/
def refCountMutexHeld (owner : Owner) (state : State) : Bool :=
  owner = .queryRouter && state.executions.contains .signalling

def cancellationMutexHeld (state : State) : Bool :=
  state.cancels.contains .cancelling || state.cancels.contains .joining

/-- What follows when the count is tested at the end of an execution. -/
def testCount (count : Int) : Execution :=
  if count = 0 then .signalling else .finished

/-- The end of an execution, in the critical section of the decrement. -/
def decrement (owner : Owner) (count : Int) : Execution :=
  match owner with
  | .queryRouter => testCount count
  | .queryEngine => .decremented

/-- The first test of a cancellation. -/
def checkCount (count : Int) : Cancel :=
  if count = 0 then .returned else .checked

/-- The end of a cancellation, behind the reset of the flag. -/
def leave : Owner -> Cancel
  | .queryRouter => .joining
  | .queryEngine => .returned

/-- The kinds of steps. -/
inductive Event where
  | execute
  | decrement
  | testCount
  | signal
  | checkCount
  | setState
  | wait
  | wake
  | reset
  | join
deriving DecidableEq

/-- The steps of all calls. A signal wakes one call that waits; a call can also wake without one. -/
inductive Step (owner : Owner) : State -> Event -> State -> Prop where
  | execute {state : State} (free : refCountMutexHeld owner state = false) :
      Step owner state .execute { state with
        executeRefCount := state.executeRefCount + 1
        executions := state.executions ++ [.running] }
  | decrement {state : State} (call : Nat) (free : refCountMutexHeld owner state = false)
      (runs : state.executions[call]? = some .running) :
      Step owner state .decrement { state with
        executeRefCount := state.executeRefCount - 1
        executions := state.executions.set call (decrement owner (state.executeRefCount - 1)) }
  | testCount {state : State} (call : Nat) (free : refCountMutexHeld owner state = false)
      (tests : state.executions[call]? = some .decremented) :
      Step owner state .testCount { state with
        executions := state.executions.set call (testCount state.executeRefCount) }
  | signalOne {state : State} (call waiter : Nat)
      (signals : state.executions[call]? = some .signalling)
      (waits : state.cancels[waiter]? = some .waiting) :
      Step owner state .signal { state with
        executions := state.executions.set call .finished
        cancels := state.cancels.set waiter .woken }
  | signalNone {state : State} (call : Nat)
      (signals : state.executions[call]? = some .signalling)
      (noWaiter : Cancel.waiting ∉ state.cancels) :
      Step owner state .signal { state with
        executions := state.executions.set call .finished }
  | checkCount {state : State} (free : refCountMutexHeld owner state = false) :
      Step owner state .checkCount { state with
        cancels := state.cancels ++ [checkCount state.executeRefCount] }
  | setState {state : State} (call : Nat) (free : cancellationMutexHeld state = false)
      (checked : state.cancels[call]? = some .checked)
      (notCancelled : state.queryCancellationState = false) :
      Step owner state .setState { state with
        queryCancellationState := true
        cancels := state.cancels.set call .cancelling }
  | alreadySet {state : State} (call : Nat) (free : cancellationMutexHeld state = false)
      (checked : state.cancels[call]? = some .checked)
      (cancelled : state.queryCancellationState = true) :
      Step owner state .setState { state with cancels := state.cancels.set call .returned }
  | wait {state : State} (call : Nat) (cancels : state.cancels[call]? = some .cancelling) :
      Step owner state .wait { state with cancels := state.cancels.set call .waiting }
  | wake {state : State} (call : Nat) (waits : state.cancels[call]? = some .waiting) :
      Step owner state .wake { state with cancels := state.cancels.set call .woken }
  | reset {state : State} (call : Nat) (free : cancellationMutexHeld state = false)
      (woken : state.cancels[call]? = some .woken) :
      Step owner state .reset { state with
        queryCancellationState := false
        cancels := state.cancels.set call (leave owner) }
  | join {state : State} (call : Nat) (joins : state.cancels[call]? = some .joining) :
      Step owner state .join { state with cancels := state.cancels.set call .returned }

/-- A run, with the states before its steps. -/
inductive Run (owner : Owner) : List (State × Event) -> State -> Prop where
  | start : Run owner [] .start
  | step {history : List (State × Event)} {before after : State} {event : Event}
      (run : Run owner history before) (goes : Step owner before event after) :
      Run owner (history ++ [(before, event)]) after

/-- All executions have ended, and all signals are delivered. -/
def AllFinished (state : State) : Prop :=
  ∀ execution ∈ state.executions, execution = .finished

/-- A cancellation waits, and no execution is left that could wake it. -/
def Stuck (state : State) : Prop :=
  Cancel.waiting ∈ state.cancels ∧ state.queryCancellationState = true ∧ AllFinished state

/-- No cancellation can go on by itself. -/
def AtRest (state : State) : Prop :=
  ∀ cancel ∈ state.cancels, cancel = .waiting ∨ cancel = .returned

/-- In no state a cancellation is stuck, and the flag is not set when all executions have ended. -/
def Completes (history : List (State × Event)) (last : State) : Prop :=
  ∀ state ∈ history.map Prod.fst ++ [last],
    ¬ Stuck state ∧ (AllFinished state -> AtRest state -> state.queryCancellationState = false)

/-- When a cancellation begins to wait, an execution has not ended, or has not signalled. -/
def WaitsInTime (history : List (State × Event)) : Prop :=
  ∀ before, (before, .wait) ∈ history -> ¬ AllFinished before

/-- No signal is sent while a cancellation is between its test of the count and its wait. -/
def SignalsUndisturbed (history : List (State × Event)) : Prop :=
  ∀ before, (before, .signal) ∈ history ->
    Cancel.checked ∉ before.cancels ∧ Cancel.cancelling ∉ before.cancels

lemma countP_set_add {Item : Type} {items : List Item} {index : Nat} {old : Item}
    (found : items[index]? = some old) (new : Item) (test : Item -> Bool) :
    (items.set index new).countP test + (if test old then 1 else 0) =
      items.countP test + (if test new then 1 else 0) := by
  rcases List.getElem?_eq_some_iff.mp found with ⟨inside, isOld⟩
  have counted : (if test old then 1 else 0) <= items.countP test := by
    rw [<- isOld]
    exact boole_getElem_le_countP inside
  rw [countP_set inside, isOld]
  omega

def Execution.active : Execution -> Bool
  | .running => true
  | .decremented | .signalling | .finished => false

/-- The flag is set by this call. -/
def Cancel.owns : Cancel -> Bool
  | .cancelling | .waiting | .woken => true
  | .checked | .joining | .returned => false

lemma testCount_active (count : Int) : (testCount count).active = false := by
  unfold testCount
  split <;> rfl

lemma decrement_active (owner : Owner) (count : Int) : (decrement owner count).active = false := by
  cases owner
  · exact testCount_active count
  · rfl

lemma checkCount_owns (count : Int) : (checkCount count).owns = false := by
  unfold checkCount
  split <;> rfl

lemma leave_owns (owner : Owner) : (leave owner).owns = false := by
  cases owner <;> rfl

/-- The count is the number of the calls that are counted, and one cancellation has set the
flag. -/
structure Coherent (state : State) : Prop where
  counts : state.executeRefCount = (state.executions.countP Execution.active : Int)
  owned : state.cancels.countP Cancel.owns = if state.queryCancellationState then 1 else 0

lemma Coherent.start : Coherent .start := ⟨rfl, rfl⟩

lemma countP_active_set {executions : List Execution} {call : Nat} {old new : Execution}
    (found : executions[call]? = some old) (wasNot : old.active = false)
    (isNot : new.active = false) :
    (executions.set call new).countP Execution.active = executions.countP Execution.active := by
  have same := countP_set_add found new Execution.active
  rwa [wasNot, isNot] at same

lemma countP_owns_set {cancels : List Cancel} {call : Nat} {old : Cancel}
    (found : cancels[call]? = some old) (new : Cancel) (same : new.owns = old.owns) :
    (cancels.set call new).countP Cancel.owns = cancels.countP Cancel.owns := by
  have counted := countP_set_add found new Cancel.owns
  rw [same] at counted
  omega

variable {owner : Owner} {before after : State} {event : Event}

lemma Step.coherent
    (goes : Step owner before event after) (coherent : Coherent before) : Coherent after := by
  rcases coherent with ⟨counts, owned⟩
  cases goes with
  | execute free =>
    refine ⟨?_, owned⟩
    simp only [countP_append, countP_singleton, Execution.active, if_true]
    omega
  | decrement call free runs =>
    refine ⟨?_, owned⟩
    have counted := countP_set_add runs
      (Cancellation.decrement owner (before.executeRefCount - 1)) Execution.active
    rw [decrement_active, if_neg Bool.false_ne_true] at counted
    simp only [Execution.active, if_true] at counted
    simp only
    omega
  | testCount call free tests =>
    exact ⟨counts.trans (congrArg _ (countP_active_set tests rfl (testCount_active _)).symm), owned⟩
  | signalOne call waiter signals waits =>
    exact ⟨counts.trans (congrArg _ (countP_active_set signals rfl rfl).symm),
      (countP_owns_set waits .woken rfl).trans owned⟩
  | signalNone call signals noWaiter =>
    exact ⟨counts.trans (congrArg _ (countP_active_set signals rfl rfl).symm), owned⟩
  | checkCount free =>
    refine ⟨counts, ?_⟩
    simp only [countP_append, countP_singleton, checkCount_owns, owned]
    rfl
  | setState call free checked notCancelled =>
    refine ⟨counts, ?_⟩
    have counted := countP_set_add checked .cancelling Cancel.owns
    simp only [notCancelled, Cancel.owns, Bool.false_eq_true] at owned counted ⊢
    omega
  | alreadySet call free checked cancelled =>
    exact ⟨counts, (countP_owns_set checked .returned rfl).trans owned⟩
  | wait call cancels => exact ⟨counts, (countP_owns_set cancels .waiting rfl).trans owned⟩
  | wake call waits => exact ⟨counts, (countP_owns_set waits .woken rfl).trans owned⟩
  | reset call free woken =>
    refine ⟨counts, ?_⟩
    have counted := countP_set_add woken (leave owner) Cancel.owns
    have atMost : before.cancels.countP Cancel.owns <= 1 := by
      rw [owned]
      split <;> omega
    have owner : Cancel.woken.owns = true := rfl
    simp only [leave_owns, owner, Bool.false_eq_true, if_false, if_true] at counted ⊢
    omega
  | join call joins => exact ⟨counts, (countP_owns_set joins .returned rfl).trans owned⟩

variable {history : List (State × Event)} {last : State}

lemma Run.coherent (run : Run owner history last) : Coherent last := by
  induction run with
  | start => exact .start
  | step run goes ih => exact goes.coherent ih

variable {state : State} {cancel : Cancel}

lemma Coherent.flag (coherent : Coherent state) (member : cancel ∈ state.cancels)
    (owns : cancel.owns = true) : state.queryCancellationState = true := by
  have positive := countP_pos_iff.mpr ⟨cancel, member, owns⟩
  rw [coherent.owned] at positive
  cases set : state.queryCancellationState with
  | true => rfl
  | false =>
    rw [set] at positive
    cases positive

lemma Coherent.no_waiter (coherent : Coherent state) {waiter : Nat}
    (waits : state.cancels[waiter]? = some .waiting) :
    Cancel.waiting ∉ state.cancels.set waiter .woken := by
  intro member
  have counted := countP_set_add waits .woken (fun cancel => cancel == .waiting)
  have another : 0 < (state.cancels.set waiter .woken).countP (fun cancel => cancel == .waiting) :=
    countP_pos_iff.mpr ⟨.waiting, member, rfl⟩
  have fewer : state.cancels.countP (fun cancel => cancel == .waiting) <=
      state.cancels.countP Cancel.owns := by
    apply countP_mono_left
    intro cancel _ isWaiting
    rw [beq_iff_eq.mp isWaiting]
    rfl
  have atMost : state.cancels.countP Cancel.owns <= 1 := by
    rw [coherent.owned]
    split <;> omega
  simp only [beq_self_eq_true, if_true] at counted
  have woken : (.woken == Cancel.waiting) = false := rfl
  rw [woken, if_neg Bool.false_ne_true] at counted
  omega

lemma Coherent.unfinished (coherent : Coherent state)
    (counted : state.executeRefCount ≠ 0) : ¬ AllFinished state := by
  intro finished
  apply counted
  rw [coherent.counts, countP_eq_zero.mpr]
  · rfl
  · intro execution member
    rw [finished execution member]
    exact Bool.false_ne_true

lemma unfinished_of_testCount (coherent : Coherent after) {call : Nat}
    (inside : call < state.executions.length)
    (tests : after.executions = state.executions.set call (testCount after.executeRefCount)) :
    ¬ AllFinished after := by
  by_cases none : after.executeRefCount = 0
  · intro finished
    have member : testCount after.executeRefCount ∈ after.executions := by
      rw [tests]
      exact mem_set inside _
    have isFinished := finished _ member
    rw [none] at isFinished
    cases isFinished
  · exact coherent.unfinished none

lemma Step.keeps_unfinished (goes : Step owner before event after) (coherent : Coherent before)
    (noSignal : event ≠ .signal) (unfinished : ¬ AllFinished before) : ¬ AllFinished after := by
  have next := goes.coherent coherent
  cases goes with
  | execute free =>
    intro finished
    cases finished .running (mem_append_right _ (mem_singleton_self _))
  | decrement call free runs =>
    have inside := (List.getElem?_eq_some_iff.mp runs).1
    cases owner with
    | queryRouter => exact unfinished_of_testCount next inside rfl
    | queryEngine =>
      intro finished
      cases finished .decremented (mem_set inside _)
  | testCount call free tests =>
    exact unfinished_of_testCount next (List.getElem?_eq_some_iff.mp tests).1 rfl
  | signalOne | signalNone => exact absurd rfl noSignal
  | checkCount | setState | alreadySet | wait | wake | reset | join => exact unfinished

/-- A cancellation waits after a step when it has waited before, or begins to.  Behind a signal
none waits. -/
lemma Step.waiting_cases (goes : Step owner before event after) (coherent : Coherent before)
    (waits : Cancel.waiting ∈ after.cancels) :
    (event ≠ .signal ∧ Cancel.waiting ∈ before.cancels) ∨ event = .wait := by
  have kept : ∀ {call : Nat} {new : Cancel},
      Cancel.waiting ∈ before.cancels.set call new -> new ≠ .waiting ->
        Cancel.waiting ∈ before.cancels := by
    intro call new member differs
    rcases mem_or_eq_of_mem_set member with earlier | isNew
    · exact earlier
    · exact absurd isNew.symm differs
  cases goes with
  | execute | decrement | testCount => exact .inl ⟨(nomatch ·), waits⟩
  | signalOne call waiter signals isWaiting => exact absurd waits (coherent.no_waiter isWaiting)
  | signalNone call signals noWaiter => exact absurd waits noWaiter
  | checkCount free =>
    rcases mem_append.mp waits with earlier | last
    · exact .inl ⟨(nomatch ·), earlier⟩
    · have isWaiting := mem_singleton.mp last
      unfold Cancellation.checkCount at isWaiting
      split at isWaiting <;> cases isWaiting
  | setState call free checked notCancelled => exact .inl ⟨(nomatch ·), kept waits (nomatch ·)⟩
  | alreadySet call free checked cancelled => exact .inl ⟨(nomatch ·), kept waits (nomatch ·)⟩
  | wait call cancels => exact .inr rfl
  | wake call isWaiting => exact .inl ⟨(nomatch ·), kept waits (nomatch ·)⟩
  | reset call free woken =>
    refine .inl ⟨(nomatch ·), kept waits ?_⟩
    cases owner <;> exact (nomatch ·)
  | join call joins => exact .inl ⟨(nomatch ·), kept waits (nomatch ·)⟩

/-- A cancellation that waits in time is woken: an execution that has not ended is there as
long as it waits. -/
lemma Run.waiting_unfinished (run : Run owner history last) (inTime : WaitsInTime history)
    (waits : Cancel.waiting ∈ last.cancels) : ¬ AllFinished last := by
  induction run with
  | start => cases waits
  | @step history before after event run goes ih =>
    have earlierInTime : WaitsInTime history :=
      fun state member => inTime state (mem_append_left _ member)
    rcases goes.waiting_cases run.coherent waits with ⟨noSignal, waited⟩ | rfl
    · exact goes.keeps_unfinished run.coherent noSignal (ih earlierInTime waited)
    · have unfinished := inTime before (mem_append_right _ (mem_singleton_self _))
      exact goes.keeps_unfinished run.coherent (nomatch ·) unfinished

/-- The cancellation is behind its first test and has not been woken. -/
def Cancel.relies : Cancel -> Bool
  | .checked | .cancelling | .waiting => true
  | .woken | .joining | .returned => false

/-- A cancellation relies on an execution after a step if one did before, or if it found one in its
test. A signal leaves none that has not begun to wait. -/
lemma Step.relies_cases (goes : Step owner before event after) (coherent : Coherent before)
    (member : cancel ∈ after.cancels) (relies : cancel.relies = true) :
    (event ≠ .signal ∧ ∃ earlier ∈ before.cancels, earlier.relies = true) ∨
      (event = .checkCount ∧ before.executeRefCount ≠ 0) ∨
      (event = .signal ∧ (.checked ∈ before.cancels ∨ Cancel.cancelling ∈ before.cancels)) := by
  have kept : ∀ {call : Nat} {old new : Cancel}, before.cancels[call]? = some old ->
      cancel ∈ before.cancels.set call new -> (new.relies = true -> old.relies = true) ->
        ∃ earlier ∈ before.cancels, earlier.relies = true := by
    intro call old new found inside keeps
    rcases mem_or_eq_of_mem_set inside with earlier | rfl
    · exact ⟨cancel, earlier, relies⟩
    · exact ⟨old, mem_of_getElem? found, keeps relies⟩
  have signalled : cancel ≠ .waiting -> cancel ∈ before.cancels ->
      Cancel.checked ∈ before.cancels ∨ Cancel.cancelling ∈ before.cancels := by
    intro notWaiting inside
    cases cancel with
    | checked => exact .inl inside
    | cancelling => exact .inr inside
    | waiting => exact absurd rfl notWaiting
    | woken | joining | returned => cases relies
  cases goes with
  | execute | decrement | testCount => exact .inl ⟨(nomatch ·), cancel, member, relies⟩
  | signalOne call waiter signals isWaiting =>
    refine .inr (.inr ⟨rfl, signalled ?_ ?_⟩)
    · rintro rfl
      exact coherent.no_waiter isWaiting member
    · rcases mem_or_eq_of_mem_set member with earlier | rfl
      · exact earlier
      · cases relies
  | signalNone call signals noWaiter =>
    refine .inr (.inr ⟨rfl, signalled ?_ member⟩)
    rintro rfl
    exact noWaiter member
  | checkCount free =>
    rcases mem_append.mp member with earlier | last
    · exact .inl ⟨(nomatch ·), cancel, earlier, relies⟩
    · refine .inr (.inl ⟨rfl, ?_⟩)
      intro none
      rw [mem_singleton.mp last, none] at relies
      cases relies
  | setState call free checked notCancelled =>
    exact .inl ⟨(nomatch ·), kept checked member (fun _ => rfl)⟩
  | alreadySet call free checked cancelled =>
    exact .inl ⟨(nomatch ·), kept checked member (fun _ => rfl)⟩
  | wait call cancels => exact .inl ⟨(nomatch ·), kept cancels member (fun _ => rfl)⟩
  | wake call isWaiting => exact .inl ⟨(nomatch ·), kept isWaiting member (fun _ => rfl)⟩
  | reset call free woken =>
    refine .inl ⟨(nomatch ·), kept woken member ?_⟩
    cases owner <;> exact (nomatch ·)
  | join call joins => exact .inl ⟨(nomatch ·), kept joins member (nomatch ·)⟩

lemma Run.relies_unfinished (run : Run owner history last)
    (undisturbed : SignalsUndisturbed history) (member : cancel ∈ last.cancels)
    (relies : cancel.relies = true) : ¬ AllFinished last := by
  induction run generalizing cancel with
  | start => cases member
  | @step history before after event run goes ih =>
    have earlierUndisturbed : SignalsUndisturbed history :=
      fun state inside => undisturbed state (mem_append_left _ inside)
    rcases goes.relies_cases run.coherent member relies with
      ⟨noSignal, earlier, isEarlier, reliedOn⟩ | ⟨rfl, counted⟩ | ⟨rfl, disturbs⟩
    · exact goes.keeps_unfinished run.coherent noSignal (ih earlierUndisturbed isEarlier reliedOn)
    · exact goes.keeps_unfinished run.coherent (nomatch ·) (run.coherent.unfinished counted)
    · rcases undisturbed before (mem_append_right _ (mem_singleton_self _)) with
        ⟨noneChecked, noneCancelling⟩
      rcases disturbs with isChecked | isCancelling
      · exact absurd isChecked noneChecked
      · exact absurd isCancelling noneCancelling

lemma Step.wait_cancelling
    (goes : Step owner before .wait after) : Cancel.cancelling ∈ before.cancels ∧
      Cancel.waiting ∈ after.cancels ∧ after.executions = before.executions := by
  cases goes with
  | wait call cancels =>
    exact ⟨mem_of_getElem? cancels, mem_set (List.getElem?_eq_some_iff.mp cancels).1 _, rfl⟩

section

variable (run : Run owner history last)

include run

lemma Run.waitsInTime (undisturbed : SignalsUndisturbed history) : WaitsInTime history := by
  induction run with
  | start => exact fun _ member => nomatch member
  | @step history before after event run goes ih =>
    have earlierUndisturbed : SignalsUndisturbed history :=
      fun state inside => undisturbed state (mem_append_left _ inside)
    intro state member
    rcases mem_append.mp member with earlier | isLast
    · exact ih earlierUndisturbed state earlier
    · cases mem_singleton.mp isLast
      exact run.relies_unfinished earlierUndisturbed goes.wait_cancelling.1 rfl

lemma Run.completes_last (inTime : WaitsInTime history) :
    ¬ Stuck last ∧ (AllFinished last -> AtRest last -> last.queryCancellationState = false) := by
  refine ⟨fun stuck => run.waiting_unfinished inTime stuck.1 stuck.2.2, ?_⟩
  intro finished atRest
  cases set : last.queryCancellationState with
  | false => rfl
  | true =>
    -- The cancellation that has set the flag is not at rest, or waits.
    have owned := run.coherent.owned
    rw [set, if_pos rfl] at owned
    rcases countP_pos_iff.mp (owned ▸ Nat.one_pos) with ⟨cancel, member, owns⟩
    rcases atRest cancel member with rfl | rfl
    · exact absurd finished (run.waiting_unfinished inTime member)
    · cases owns

lemma Run.completes (inTime : WaitsInTime history) : Completes history last := by
  induction run with
  | start =>
    intro state member
    cases mem_singleton.mp member
    exact (.start : Run owner [] .start).completes_last inTime
  | @step history before after event run goes ih =>
    intro state member
    rcases mem_append.mp member with earlier | isLast
    · rw [map_append] at earlier
      exact ih (fun one inside => inTime one (mem_append_left _ inside)) state earlier
    · cases mem_singleton.mp isLast
      exact (run.step goes).completes_last inTime

lemma Run.inTime_of_completes (completes : Completes history last) : WaitsInTime history := by
  induction run with
  | start => exact fun _ member => nomatch member
  | @step history before after event run goes ih =>
    have earlierCompletes : Completes history before := by
      intro state inside
      refine completes state (mem_append_left _ ?_)
      rwa [map_append]
    intro state member finished
    rcases mem_append.mp member with earlier | isLast
    · exact ih earlierCompletes state earlier finished
    · cases mem_singleton.mp isLast
      rcases goes.wait_cancelling with ⟨-, waits, sameExecutions⟩
      have flag := (run.step goes).coherent.flag waits rfl
      refine (completes after (mem_append_right _ (mem_singleton_self _))).1 ⟨waits, flag, ?_⟩
      intro execution inside
      exact finished execution (sameExecutions ▸ inside)

end

/-- A run completes its cancellations exactly when each of them begins to wait while an execution
has not ended, as it does if no signal comes between its test and its wait. -/
theorem completes_iff_waitsInTime {owner : Owner} {history : List (State × Event)}
    {last : State} (run : Run owner history last) :
    (Completes history last ↔ WaitsInTime history) ∧
      (SignalsUndisturbed history -> Completes history last) :=
  ⟨⟨run.inTime_of_completes, run.completes⟩,
    fun undisturbed => run.completes (run.waitsInTime undisturbed)⟩

/-- A run of the router in which the signal comes behind the wait. -/
theorem signalled_run_completes : ∃ history last, Run .queryRouter history last ∧
    Event.signal ∈ history.map Prod.snd ∧ last.cancels = [.returned] ∧
      Completes history last := by
  have run := ((((((((.start : Run .queryRouter [] .start).step (.execute rfl)).step
    (.checkCount rfl)).step (.setState 0 rfl rfl rfl)).step
    (.wait 0 rfl)).step (.decrement 0 rfl rfl)).step
    (.signalOne 0 0 rfl rfl)).step
    (.reset 0 rfl rfl)).step (.join 0 rfl)
  refine ⟨_, _, run, ?_, ?_, (completes_iff_waitsInTime run).1.mpr ?_⟩
  · decide
  · decide
  · intro before member
    simp at member
    rw [member]
    intro finished
    cases finished .running (by decide)

/-- The signal comes between the test of the count and the wait. -/
theorem lost_signal_stuck : (∃ history last, Run .queryRouter history last ∧ Stuck last) ∧
    (∃ history last, Run .queryEngine history last ∧ Stuck last) := by
  constructor
  · have run := ((((((.start : Run .queryRouter [] .start).step (.execute rfl)).step
      (.checkCount rfl)).step (.decrement 0 rfl rfl)).step
      (.signalNone 0 rfl (by decide))).step (.setState 0 rfl rfl rfl)).step
      (.wait 0 rfl)
    exact ⟨_, _, run, by decide, rfl, by unfold AllFinished; decide⟩
  · have run := (((((((.start : Run .queryEngine [] .start).step (.execute rfl)).step
      (.checkCount rfl)).step (.decrement 0 rfl rfl)).step
      (.testCount 0 rfl rfl)).step (.signalNone 0 rfl (by decide))).step
      (.setState 0 rfl rfl rfl)).step (.wait 0 rfl)
    exact ⟨_, _, run, by decide, rfl, by unfold AllFinished; decide⟩

end Cancellation
end Ecclesia.Engine
