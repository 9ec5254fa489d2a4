import Mathlib.Algebra.BigOperators.Fin
import Mathlib.Algebra.Order.BigOperators.Group.Finset

namespace Ecclesia.Thread

open List

open Function (update update_self update_of_ne)

/-!
# The thread pool

The workers of a `ThreadPool` take functions from one queue, and the destructor tells them to leave
by putting a null function for each of them into that queue.  The definitions follow
`thread_pool.h`; `push`, and the wait with `front` and `pop`, are one step each, as they are done
under the lock.
-/

/-- What a worker does. -/
inductive Phase (Func : Type) where
  | waiting
  | holding (func : Func)
  | running
  | exited

/-- The queue and the workers, with a record of what happened.  A shutdown signal is `none`. -/
structure PoolState (Func : Type) (threads : Nat) where
  queue : List (Option Func)
  worker : Fin threads -> Phase Func
  shutdown : Bool
  scheduled : List Func
  taken : List Func
  started : List Func
  signals : Fin threads -> Nat

/-- `schedule` and `destroy` are the caller's; the others are a worker's. -/
inductive PoolAction (Func : Type) (threads : Nat) where
  | schedule (func : Func)
  | destroy
  | take (thread : Fin threads)
  | start (thread : Fin threads)
  | finish (thread : Fin threads)

section

variable {Func : Type} {threads : Nat}

def threadPool : PoolState Func threads :=
  ⟨[], fun _ => .waiting, false, [], [], [], fun _ => 0⟩

/-- One step: nothing is scheduled once the destructor has started. -/
inductive PoolStep (state : PoolState Func threads) :
    PoolAction Func threads -> PoolState Func threads -> Prop
  | schedule (func : Func) (opened : state.shutdown = false) :
      PoolStep state (.schedule func) { state with
        queue := state.queue ++ [some func]
        scheduled := state.scheduled ++ [func] }
  | destroy (opened : state.shutdown = false) :
      PoolStep state .destroy { state with
        queue := state.queue ++ List.replicate threads none
        shutdown := true }
  | takeFunc (thread : Fin threads) {func : Func} {rest : List (Option Func)}
      (waiting : state.worker thread = .waiting) (front : state.queue = some func :: rest) :
      PoolStep state (.take thread) { state with
        queue := rest
        worker := update state.worker thread (.holding func)
        taken := state.taken ++ [func] }
  | takeSignal (thread : Fin threads) {rest : List (Option Func)}
      (waiting : state.worker thread = .waiting) (front : state.queue = none :: rest) :
      PoolStep state (.take thread) { state with
        queue := rest
        worker := update state.worker thread .exited
        signals := update state.signals thread (state.signals thread + 1) }
  | start (thread : Fin threads) {func : Func} (holding : state.worker thread = .holding func) :
      PoolStep state (.start thread) { state with
        worker := update state.worker thread .running
        started := state.started ++ [func] }
  | finish (thread : Fin threads) (running : state.worker thread = .running) :
      PoolStep state (.finish thread) { state with
        worker := update state.worker thread .waiting }

/-- The states of the runs whose steps are all of a kind. -/
inductive Reached (allowed : PoolState Func threads -> PoolAction Func threads -> Prop) :
    PoolState Func threads -> Prop
  | init : Reached allowed threadPool
  | step {state after : PoolState Func threads} {action : PoolAction Func threads}
      (before : Reached allowed state) (isAllowed : allowed state action)
      (taken : PoolStep state action after) : Reached allowed after

/-- The workers interleave at their queue steps: a function is started before the next is taken. -/
def AtQueueSteps (state : PoolState Func threads) : PoolAction Func threads -> Prop
  | .take _ => ∀ thread func, state.worker thread ≠ .holding func
  | _ => True

/-- The destructor has joined every thread. -/
def Returned (state : PoolState Func threads) : Prop :=
  state.shutdown = true ∧ ∀ thread, state.worker thread = .exited

/-- Every function was taken in its turn and was started once, and every worker took one signal. -/
structure NothingLost (state : PoolState Func threads) : Prop where
  queue_eq : state.queue = []
  taken_eq : state.taken = state.scheduled
  started : state.started.Perm state.scheduled
  signals_eq : ∀ thread, state.signals thread = 1

end

/-- The functions that a worker has and has not started. -/
def Phase.held {Func : Type} : Phase Func -> Multiset Func
  | .holding func => {func}
  | _ => 0

def Phase.stays {Func : Type} : Phase Func -> Nat
  | .exited => 0
  | _ => 1

def Phase.left {Func : Type} : Phase Func -> Nat
  | .exited => 1
  | _ => 0

lemma sum_update {threads : Nat} {Place Amount : Type} [AddCommMonoid Amount]
    (amount : Place -> Amount) (place : Fin threads -> Place) (thread : Fin threads) (new : Place) :
    amount (place thread) + ∑ i, amount (update place thread new i) =
      amount new + ∑ i, amount (place i) := by
  have others : ∑ i ∈ Finset.univ.erase thread, amount (update place thread new i) =
      ∑ i ∈ Finset.univ.erase thread, amount (place i) := by
    apply Finset.sum_congr rfl
    intro i isOther
    rw [update_of_ne (Finset.ne_of_mem_erase isOther)]
  rw [<- Finset.add_sum_erase _ _ (Finset.mem_univ thread), others, update_self,
    <- Finset.add_sum_erase _ (fun i => amount (place i)) (Finset.mem_univ thread),
    add_left_comm]

section

variable {Func : Type} {threads : Nat} {state after : PoolState Func threads}
  {funcs : List Func} {func : Func} {thread : Fin threads}

/-- One signal for each worker that has not left. -/
def PoolState.pending (state : PoolState Func threads) : Nat :=
  if state.shutdown then ∑ thread, (state.worker thread).stays else 0

/-- The functions of the queue come before its signals, and nothing that was scheduled is missing.
-/
structure KeepsWork (state : PoolState Func threads) (funcs : List Func) : Prop where
  queue_eq : state.queue = funcs.map some ++ List.replicate state.pending none
  scheduled_eq : state.scheduled = state.taken ++ funcs
  exited : ∀ thread, state.worker thread = .exited -> state.shutdown = true ∧ funcs = []
  signals_eq : ∀ thread, state.signals thread = (state.worker thread).left
  counted : (state.started : Multiset Func) + ∑ thread, (state.worker thread).held = state.taken

lemma keepsWork_threadPool : KeepsWork (threadPool : PoolState Func threads) [] where
  queue_eq := rfl
  scheduled_eq := rfl
  exited := by
    intro thread impossible
    cases impossible
  signals_eq := fun thread => rfl
  counted := by
    change (0 : Multiset Func) + ∑ thread : Fin threads, 0 = 0
    rw [Finset.sum_const_zero, add_zero]

variable {place : Fin threads -> Phase Func} {new : Phase Func}

/-- A worker that has not left and does not leave changes no count of signals. -/
lemma sum_stays_update (old : (place thread).stays = 1) (alsoNew : new.stays = 1) :
    ∑ i, (update place thread new i).stays = ∑ i, (place i).stays := by
  have update := sum_update Phase.stays place thread new
  omega

lemma signals_update {signals : Fin threads -> Nat} (signals_eq : ∀ i, signals i = (place i).left)
    (old : (place thread).left = 0) (alsoNew : new.left = 0) (i : Fin threads) :
    signals i = (update place thread new i).left := by
  by_cases same : i = thread
  · rw [same, signals_eq thread, update_self, old, alsoNew]
  · rw [update_of_ne same]
    exact signals_eq i

lemma exited_update {i : Fin threads} (stays : new.stays = 1)
    (exited : update place thread new i = .exited) : place i = .exited := by
  by_cases same : i = thread
  · rw [same, update_self] at exited
    rw [exited] at stays
    cases stays
  · rwa [update_of_ne same] at exited

variable {action : PoolAction Func threads}

section

variable (keeps : KeepsWork state funcs)

include keeps

lemma KeepsWork.opened (opened : state.shutdown = false)
    (i : Fin threads) : (state.worker i).stays = 1 := by
  have noneLeft : state.worker i ≠ .exited := by
    intro exited
    rw [(keeps.exited i exited).1] at opened
    cases opened
  cases phase : state.worker i with
  | exited => exact absurd phase noneLeft
  | waiting | holding _ | running => rfl

lemma KeepsWork.schedule (opened : state.shutdown = false) :
    KeepsWork { state with
      queue := state.queue ++ [some func]
      scheduled := state.scheduled ++ [func] } (funcs ++ [func]) := by
  have none_ : state.pending = 0 := by rw [PoolState.pending, opened]; rfl
  refine ⟨?_, ?_, ?_, keeps.signals_eq, keeps.counted⟩
  · change state.queue ++ [some func] = _ ++ replicate state.pending none
    rw [keeps.queue_eq, none_, map_append, replicate_zero, append_nil, append_nil]
    rfl
  · rw [keeps.scheduled_eq, append_assoc]
  · intro i exited
    have stays := keeps.opened opened i
    rw [exited] at stays
    cases stays

lemma KeepsWork.destroy (opened : state.shutdown = false) :
    KeepsWork { state with
      queue := state.queue ++ replicate threads none
      shutdown := true } funcs := by
  have none_ : state.pending = 0 := by rw [PoolState.pending, opened]; rfl
  refine ⟨?_, keeps.scheduled_eq, ?_, keeps.signals_eq, keeps.counted⟩
  · have all : ∑ i, (state.worker i).stays = threads := by
      rw [Finset.sum_congr rfl fun i _ => keeps.opened opened i, Finset.sum_const,
        Finset.card_univ, Fintype.card_fin, smul_eq_mul, mul_one]
    change state.queue ++ replicate threads none =
      funcs.map some ++ replicate (∑ i, (state.worker i).stays) none
    rw [all, keeps.queue_eq, none_, replicate_zero, append_nil]
  · intro i exited
    have stays := keeps.opened opened i
    rw [exited] at stays
    cases stays

lemma KeepsWork.takeFunc {rest : List (Option Func)}
    (waiting : state.worker thread = .waiting) (front : state.queue = some func :: rest) :
    ∃ fewer, KeepsWork { state with
      queue := rest
      worker := update state.worker thread (.holding func)
      taken := state.taken ++ [func] } fewer := by
  have queue_eq := keeps.queue_eq
  rw [front] at queue_eq
  cases funcs with
  | nil =>
    cases pending : state.pending with
    | zero => rw [pending] at queue_eq; cases queue_eq
    | succ pending' => rw [pending, replicate_succ] at queue_eq; cases queue_eq
  | cons first fewer =>
    cases queue_eq
    have held := sum_update Phase.held state.worker thread (.holding func)
    rw [waiting] at held
    have stays := sum_stays_update (congrArg Phase.stays waiting)
      (rfl : (Phase.holding func).stays = 1)
    refine ⟨fewer, ?_, ?_, ?_, ?_, ?_⟩
    · change fewer.map some ++ replicate state.pending none =
        fewer.map some ++ replicate (if state.shutdown then _ else 0) none
      rw [stays]
      rfl
    · rw [keeps.scheduled_eq, append_assoc, singleton_append]
    · intro i exited
      cases (keeps.exited i (exited_update rfl exited)).2
    · exact signals_update keeps.signals_eq (congrArg Phase.left waiting) rfl
    · rw [<- Multiset.coe_add, <- keeps.counted, add_assoc]
      congr 1
      exact (zero_add _).symm.trans (held.trans (add_comm {func} _))

lemma KeepsWork.takeSignal {rest : List (Option Func)}
    (waiting : state.worker thread = .waiting) (front : state.queue = none :: rest) :
    KeepsWork { state with
      queue := rest
      worker := update state.worker thread .exited
      signals := update state.signals thread (state.signals thread + 1) } [] := by
  have queue_eq := keeps.queue_eq
  rw [front] at queue_eq
  cases funcs with
  | cons first fewer => cases queue_eq
  | nil =>
    cases pending : state.pending with
    | zero => rw [pending] at queue_eq; cases queue_eq
    | succ fewer =>
      rw [pending] at queue_eq
      cases queue_eq
      have shutdown : state.shutdown = true := by
        by_contra open_
        have none_ : state.pending = 0 := if_neg open_
        omega
      have counts : state.pending = ∑ i, (state.worker i).stays := if_pos shutdown
      have stays := sum_update Phase.stays state.worker thread .exited
      have held := sum_update Phase.held state.worker thread .exited
      rw [waiting] at stays held
      change 1 + _ = 0 + _ at stays
      refine ⟨?_, keeps.scheduled_eq, fun _ _ => ⟨shutdown, rfl⟩, ?_, ?_⟩
      · have one : (if state.shutdown then
            ∑ i, (update state.worker thread .exited i).stays else 0) = fewer := by
          rw [if_pos shutdown]
          omega
        change replicate fewer none = replicate (if state.shutdown then _ else 0) none
        rw [one]
      · intro i
        change update state.signals thread _ i = (update state.worker thread .exited i).left
        by_cases same : i = thread
        · rw [same, update_self, update_self, keeps.signals_eq thread,
            waiting]
          rfl
        · rw [update_of_ne same, update_of_ne same]
          exact keeps.signals_eq i
      · rw [<- keeps.counted]
        congr 1
        exact (zero_add _).symm.trans (held.trans (zero_add _))

lemma KeepsWork.start (holding : state.worker thread = .holding func) :
    KeepsWork { state with
      worker := update state.worker thread .running
      started := state.started ++ [func] } funcs := by
  have held := sum_update Phase.held state.worker thread .running
  rw [holding] at held
  refine ⟨?_, keeps.scheduled_eq, ?_, ?_, ?_⟩
  · rw [keeps.queue_eq, PoolState.pending, PoolState.pending,
      sum_stays_update (congrArg Phase.stays holding) (rfl : Phase.running.stays = 1)]
  · intro i exited
    exact keeps.exited i (exited_update rfl exited)
  · exact signals_update keeps.signals_eq (congrArg Phase.left holding) rfl
  · rw [<- Multiset.coe_add, <- keeps.counted, add_assoc]
    congr 1
    exact held.trans (zero_add _)

lemma KeepsWork.finish (running : state.worker thread = .running) :
    KeepsWork { state with worker := update state.worker thread .waiting } funcs := by
  have held := sum_update Phase.held state.worker thread .waiting
  rw [running] at held
  refine ⟨?_, keeps.scheduled_eq, ?_, ?_, ?_⟩
  · rw [keeps.queue_eq, PoolState.pending, PoolState.pending,
      sum_stays_update (congrArg Phase.stays running) (rfl : Phase.waiting.stays = 1)]
  · intro i exited
    exact keeps.exited i (exited_update rfl exited)
  · exact signals_update keeps.signals_eq (congrArg Phase.left running) rfl
  · rw [<- keeps.counted]
    congr 1
    exact (zero_add _).symm.trans (held.trans (zero_add _))

lemma KeepsWork.step (taken : PoolStep state action after) : ∃ queued, KeepsWork after queued := by
  cases taken with
  | schedule func opened => exact ⟨_, keeps.schedule opened⟩
  | destroy opened => exact ⟨_, keeps.destroy opened⟩
  | takeFunc thread waiting front => exact keeps.takeFunc waiting front
  | takeSignal thread waiting front => exact ⟨_, keeps.takeSignal waiting front⟩
  | start thread holding => exact ⟨_, keeps.start holding⟩
  | finish thread running => exact ⟨_, keeps.finish running⟩

end

lemma Reached.keepsWork {allowed : PoolState Func threads -> PoolAction Func threads -> Prop}
    (reached : Reached allowed state) : ∃ funcs, KeepsWork state funcs := by
  induction reached with
  | init => exact ⟨_, keepsWork_threadPool⟩
  | step before isAllowed taken ih =>
    rcases ih with ⟨funcs, keeps⟩
    exact keeps.step taken

lemma KeepsWork.nothingLost {state : PoolState Func (threads + 1)}
    (keeps : KeepsWork state funcs) (returned : Returned state) : NothingLost state := by
  rcases returned with ⟨shutdown, exited⟩
  cases (keeps.exited 0 (exited 0)).2
  have none_ : state.pending = 0 := by
    rw [PoolState.pending, if_pos shutdown]
    apply Finset.sum_eq_zero
    intro i _
    rw [exited i]
    rfl
  have taken_eq : state.taken = state.scheduled := by
    rw [keeps.scheduled_eq, append_nil]
  refine ⟨?_, taken_eq, ?_, ?_⟩
  · rw [keeps.queue_eq, none_]
    rfl
  · rw [<- taken_eq, <- Multiset.coe_eq_coe, <- keeps.counted]
    symm
    convert add_zero _
    apply Finset.sum_eq_zero
    intro i _
    rw [exited i]
    rfl
  · intro i
    rw [keeps.signals_eq i, exited i]
    rfl

/-- A pool without workers loses nothing only if nothing is scheduled. -/
lemma Reached.started_perm {allowed : PoolState Func threads -> PoolAction Func threads -> Prop}
    (reached : Reached allowed state) (returned : Returned state)
    (workers : threads = 0 -> state.scheduled = []) : state.started.Perm state.scheduled := by
  rcases reached.keepsWork with ⟨funcs, keeps⟩
  cases threads with
  | zero =>
    have counted := keeps.counted
    have nothing := keeps.scheduled_eq.symm.trans (workers rfl)
    rw [(append_eq_nil_iff.mp nothing).1, Finset.univ_eq_empty, Finset.sum_empty,
      add_zero] at counted
    rw [workers rfl, <- Multiset.coe_eq_coe]
    exact counted
  | succ threads => exact (keeps.nothingLost returned).started

/-- At most one function is taken and not started, the last one. -/
def InOrder (state : PoolState Func threads) : Prop :=
  ((∀ thread func, state.worker thread ≠ .holding func) ∧ state.started = state.taken) ∨
    ∃ thread func, state.worker thread = .holding func ∧
      (∀ other, other ≠ thread -> ∀ func, state.worker other ≠ .holding func) ∧
      state.started ++ [func] = state.taken

lemma holding_update {i : Fin threads} (free : ∀ func, new ≠ .holding func)
    (holding : update place thread new i = .holding func) :
    i ≠ thread ∧ place i = .holding func := by
  by_cases same : i = thread
  · rw [same, update_self] at holding
    exact absurd holding (free func)
  · rw [update_of_ne same] at holding
    exact ⟨same, holding⟩

lemma InOrder.step (inOrder : InOrder state)
    (allowed : AtQueueSteps state action) (taken : PoolStep state action after) :
    InOrder after := by
  have ready (free : ∀ thread func, state.worker thread ≠ .holding func) :
      state.started = state.taken := by
    rcases inOrder with ⟨_, equal⟩ | ⟨thread, func, holding, _⟩
    · exact equal
    · exact absurd holding (free thread func)
  cases taken with
  | schedule func opened => exact inOrder
  | destroy opened => exact inOrder
  | @takeFunc thread func rest waiting front =>
    refine .inr ⟨thread, func, update_self .., ?_, ?_⟩
    · intro other different func holding
      exact allowed other func ((update_of_ne different ..).symm.trans holding)
    · rw [ready allowed]
  | takeSignal thread waiting front =>
    refine .inl ⟨?_, ready allowed⟩
    intro i func holding
    exact allowed i func (holding_update (fun _ impossible => by cases impossible) holding).2
  | @start thread func holding =>
    rcases inOrder with ⟨free, _⟩ | ⟨only, last, holds, others, equal⟩
    · exact absurd holding (free thread func)
    · have same : thread = only := by
        by_contra different
        exact others thread different func holding
      subst same
      cases holding.symm.trans holds
      refine .inl ⟨?_, equal⟩
      intro i func holding
      rcases holding_update (fun _ impossible => by cases impossible) holding with ⟨different, holding⟩
      exact others i different func holding
  | finish thread running =>
    have kept {i : Fin threads} {func : Func}
        (holding : update state.worker thread .waiting i = .holding func) :=
      (holding_update (fun _ impossible => by cases impossible) holding).2
    rcases inOrder with ⟨free, equal⟩ | ⟨only, last, holds, others, equal⟩
    · exact .inl ⟨fun i func holding => free i func (kept holding), equal⟩
    · have different : only ≠ thread := by
        rintro rfl
        cases running.symm.trans holds
      refine .inr ⟨only, last, (update_of_ne different ..).trans holds, ?_, equal⟩
      intro other different func holding
      exact others other different func (kept holding)

lemma Reached.inOrder {allowed : PoolState Func threads -> PoolAction Func threads -> Prop}
    (reached : Reached allowed state)
    (atQueueSteps : ∀ state action, allowed state action -> AtQueueSteps state action) :
    InOrder state := by
  induction reached with
  | init => exact .inl ⟨fun _ _ => nofun, rfl⟩
  | step before isAllowed taken ih => exact ih.step (atQueueSteps _ _ isAllowed) taken

lemma InOrder.started_eq (inOrder : InOrder state) (returned : Returned state) :
    state.started = state.taken := by
  rcases inOrder with ⟨_, equal⟩ | ⟨thread, func, holding, _⟩
  · exact equal
  · cases holding.symm.trans (returned.2 thread)

/-- No worker waits for a signal that does not come. -/
lemma KeepsWork.progress (keeps : KeepsWork state funcs) (shutdown : state.shutdown = true)
    (stays : state.worker thread ≠ .exited) :
    ∃ action ∈ [.take thread, .start thread, .finish thread],
      ∃ after, PoolStep state action after := by
  cases phase : state.worker thread with
  | exited => exact absurd phase stays
  | holding func => exact ⟨.start thread, by simp, _, .start thread phase⟩
  | running => exact ⟨.finish thread, by simp, _, .finish thread phase⟩
  | waiting =>
    refine ⟨.take thread, by simp, ?_⟩
    cases front : state.queue with
    | cons next rest =>
      cases next with
      | none => exact ⟨_, .takeSignal thread phase front⟩
      | some func => exact ⟨_, .takeFunc thread phase front⟩
    | nil =>
      have none_ : state.pending = 0 := by
        have lengths := congrArg List.length (front.symm.trans keeps.queue_eq)
        simp only [length_nil, length_append, length_replicate] at lengths
        omega
      rw [PoolState.pending, if_pos shutdown, Finset.sum_eq_zero_iff] at none_
      have noSignal := none_ thread (Finset.mem_univ _)
      rw [phase] at noSignal
      cases noSignal

/-- The steps that a worker makes before it takes from the queue again. -/
def Phase.steps {Func : Type} : Phase Func -> Nat
  | .holding _ => 2
  | .running => 1
  | _ => 0

def PoolState.work (state : PoolState Func threads) : Nat :=
  3 * state.queue.length + ∑ thread, (state.worker thread).steps

lemma PoolStep.work_lt (taken : PoolStep state action after)
    (shutdown : state.shutdown = true) : after.work < state.work := by
  cases taken with
  | schedule func opened => cases opened.symm.trans shutdown
  | destroy opened => cases opened.symm.trans shutdown
  | @takeFunc thread func rest waiting front =>
    have steps := sum_update Phase.steps state.worker thread (.holding func)
    simp only [PoolState.work, front, length_cons, Phase.steps] at steps ⊢
    omega
  | takeSignal thread waiting front =>
    have steps := sum_update Phase.steps state.worker thread .exited
    simp only [PoolState.work, front, length_cons, Phase.steps] at steps ⊢
    omega
  | start thread holding =>
    have steps := sum_update Phase.steps state.worker thread .running
    rw [holding] at steps
    simp only [PoolState.work, Phase.steps] at steps ⊢
    omega
  | finish thread running =>
    have steps := sum_update Phase.steps state.worker thread .waiting
    rw [running] at steps
    simp only [PoolState.work, Phase.steps] at steps ⊢
    omega

/-- In every run all that was scheduled is started before the destructor returns, in order where the
workers interleave at their queue steps, and each worker that has left took one signal. Once the
destructor has started, each worker that has not left can go on, and each step leaves less to do. -/
theorem shutdown_complete (allowed : PoolState Func (threads + 1) ->
      PoolAction Func (threads + 1) -> Prop)
    (state : PoolState Func (threads + 1)) (reached : Reached allowed state) :
    (Returned state -> NothingLost state) ∧
      ((∀ state action, allowed state action -> AtQueueSteps state action) ->
        Returned state -> state.started = state.scheduled) ∧
      (∀ thread, state.signals thread = (state.worker thread).left) ∧
      (state.shutdown = true ->
        (∀ thread, state.worker thread ≠ .exited ->
          ∃ action ∈ [.take thread, .start thread, .finish thread],
            ∃ after, PoolStep state action after) ∧
        ∀ action after, PoolStep state action after -> after.work < state.work) := by
  rcases reached.keepsWork with ⟨funcs, keeps⟩
  refine ⟨keeps.nothingLost, ?_, keeps.signals_eq, ?_⟩
  · intro atQueueSteps returned
    rw [(reached.inOrder atQueueSteps).started_eq returned]
    exact (keeps.nothingLost returned).taken_eq
  · intro shutdown
    refine ⟨fun thread => keeps.progress shutdown, ?_⟩
    intro action after taken
    exact taken.work_lt shutdown

end

theorem shutdown_complete_one : ∃ state : PoolState Nat 1,
    Returned state ∧ state.scheduled = [7] ∧ NothingLost state := by
  have empty : Reached (fun (_ : PoolState Nat 1) _ => True) threadPool := .init
  have scheduled := empty.step trivial (.schedule 7 rfl)
  have destroyed := scheduled.step trivial (.destroy rfl)
  have started := (destroyed.step trivial (.takeFunc 0 rfl rfl)).step trivial (.start 0 rfl)
  have left := (started.step trivial (.finish 0 rfl)).step trivial (.takeSignal 0 rfl rfl)
  refine ⟨_, ?_, rfl, (shutdown_complete _ _ left).1 ?_⟩ <;> exact ⟨rfl, fun | 0 => rfl⟩

end Ecclesia.Thread
