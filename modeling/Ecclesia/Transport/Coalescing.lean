import Ecclesia.Transport.CacheNode
import Mathlib.Data.List.Nodup

namespace Ecclesia.Transport

open List

open Function (update_self update_of_ne)

/-!
# Concurrent reads of a node

Any number of threads read a node at the same time.  A step of the run is one critical
section of one thread, or the start or the end of its request.  The updates of a node are
numbered, and every thread that waits keeps the number of the update that was in progress
when it left its notification.
-/

variable {Reader Time Duration : Type}

/-- Where the read of a thread is. -/
inductive Phase (Time : Type) where
  | idle
  | updating (update : Nat)
  | requesting (update : Nat)
  | fetched (update : Nat) (result : StatusOr Response) (updateTime : Option Time)
  | waiting (update : Nat)
  | served (result : StatusOr Response) (isFresh : Bool)

def Phase.update? {Time : Type} : Phase Time -> Option Nat
  | .updating update | .requesting update | .fetched update _ _ => some update
  | .idle | .waiting _ | .served _ _ => none

/-- A node and the threads that read it. The updates are numbered for the proofs. -/
structure NodeRun (Reader Time Duration : Type) where
  node : CacheNode Time Duration Reader
  phase : Reader -> Phase Time
  current : Nat
  registered : Reader -> Option Nat
  notices : Reader -> List Nat

namespace NodeRun

section

variable [DecidableEq Reader]

def start (node : CacheNode Time Duration Reader) : NodeRun Reader Time Duration :=
  ⟨node, fun _ => .idle, 0, fun _ => none, fun _ => []⟩

variable (run : NodeRun Reader Time Duration)

/-- A thread passes to another phase. -/
def move (reader : Reader) (phase : Phase Time) :
    NodeRun Reader Time Duration :=
  { run with phase := Function.update run.phase reader phase }

lemma move_phase (reader : Reader) (phase : Phase Time) :
    (run.move reader phase).phase = Function.update run.phase reader phase :=
  rfl

/-- The critical section in which a thread leaves its notification, or begins an update. -/
def register (reader : Reader) :
    NodeRun Reader Time Duration :=
  let entered := run.node.registerNotificationIfUpdateInProgress reader
  match entered.1 with
  | false =>
    { run with
      node := entered.2
      phase := Function.update run.phase reader (.updating (run.current + 1))
      current := run.current + 1 }
  | true =>
    { run with
      node := entered.2
      phase := Function.update run.phase reader (.waiting run.current)
      registered := Function.update run.registered reader (some run.current) }

/-- The critical section in which an update is published. -/
def publish (run : NodeRun Reader Time Duration) (reader : Reader) (update : Nat)
    (result : StatusOr Response) (updateTime : Option Time) : NodeRun Reader Time Duration :=
  { run with
    node := run.node.publish result updateTime
    phase := Function.update run.phase reader (.served result true)
    notices := fun other => run.notices other ++
      List.replicate (run.node.notifications.count other) update }

variable [LinearOrder Time] [HAdd Time Duration Time]

/-- The steps of `CachedRead` and `UncachedRead`. -/
inductive Step : NodeRun Reader Time Duration -> NodeRun Reader Time Duration -> Prop where
  | hit {run : NodeRun Reader Time Duration} {reader : Reader} {now : Time}
      (idle : run.phase reader = .idle) (recent : run.node.recent now = true) :
      Step run (run.move reader (.served run.node.result false))
  | registerCached {run : NodeRun Reader Time Duration} {reader : Reader} {now : Time}
      (idle : run.phase reader = .idle) (old : run.node.recent now = false) :
      Step run (run.register reader)
  | registerUncached {run : NodeRun Reader Time Duration} {reader : Reader}
      (idle : run.phase reader = .idle) : Step run (run.register reader)
  | request {run : NodeRun Reader Time Duration} {reader : Reader} {update : Nat}
      (updates : run.phase reader = .updating update) :
      Step run (run.move reader (.requesting update))
  | reply {run : NodeRun Reader Time Duration} {reader : Reader} {update : Nat}
      (requests : run.phase reader = .requesting update) (result : StatusOr Response)
      (now : Time) :
      Step run (run.move reader (.fetched update result (run.node.updateTime result now)))
  | publish {run : NodeRun Reader Time Duration} {reader : Reader} {update : Nat}
      {result : StatusOr Response} {updateTime : Option Time}
      (fetched : run.phase reader = .fetched update result updateTime) :
      Step run (run.publish reader update result updateTime)
  | wake {run : NodeRun Reader Time Duration} {reader : Reader} {update : Nat}
      (waits : run.phase reader = .waiting update) (notified : run.notices reader ≠ []) :
      Step run (run.move reader (.served run.node.result true))

/-- No two requests are in flight, every registered thread is notified once and by its update, none
is left without an update, and a thread that waits can be served. -/
structure LosesNoReader : Prop where
  oneRequest : ∀ first second firstUpdate secondUpdate,
    run.phase first = .requesting firstUpdate -> run.phase second = .requesting secondUpdate ->
      first = second
  notifiedOnce : ∀ reader update, run.registered reader = some update ->
    run.notices reader = [update] ∨
      (run.notices reader = [] ∧ run.node.notifications.count reader = 1 ∧
        ∃ updater, (run.phase updater).update? = some update)
  quiet : run.node.operationInProgress = false -> run.node.notifications = []
  goesOn : ∀ reader update, run.phase reader = .waiting update ->
    ∃ later, Relation.ReflTransGen Step run later ∧
      ∃ result, later.phase reader = .served result true

end

section

variable [DecidableEq Reader]

/-- What holds in every state. -/
structure Coalesced (run : NodeRun Reader Time Duration) : Prop where
  current : ∀ reader update, (run.phase reader).update? = some update ->
    update = run.current ∧ run.node.operationInProgress = true
  single : ∀ first second, (run.phase first).update?.isSome = true ->
    (run.phase second).update?.isSome = true -> first = second
  updated : run.node.operationInProgress = true ->
    ∃ updater, (run.phase updater).update? = some run.current
  quiet : run.node.operationInProgress = false -> run.node.notifications = []
  distinct : run.node.notifications.Nodup
  listed : ∀ reader, reader ∈ run.node.notifications ↔
    run.registered reader = some run.current ∧ run.notices reader = []
  notified : ∀ reader update, run.registered reader = some update ->
    run.notices reader = [update] ∨ (run.notices reader = [] ∧ update = run.current ∧
      run.node.operationInProgress = true)
  waits : ∀ reader update, run.phase reader = .waiting update -> run.registered reader = some update
  begins : ∀ reader, run.registered reader = none -> run.notices reader = []
  idle : ∀ reader, run.phase reader = .idle -> run.registered reader = none

variable {reader : Reader}

lemma of_update_eq {Value : Type} {values : Reader -> Value} {other : Reader}
    {next value : Value} (updated : Function.update values reader next other = value)
    (differs : next ≠ value) : other ≠ reader ∧ values other = value := by
  by_cases isReader : other = reader
  · rw [isReader, update_self] at updated
    exact absurd updated differs
  · rw [update_of_ne isReader] at updated
    exact ⟨isReader, updated⟩

lemma update?_update {phases : Reader -> Phase Time} {next : Phase Time}
    (same : next.update? = (phases reader).update?) (other : Reader) :
    (Function.update phases reader next other).update? = (phases other).update? := by
  by_cases isReader : other = reader
  · rw [isReader, update_self, same]
  · rw [update_of_ne isReader]

variable {run : NodeRun Reader Time Duration}

section

variable (coalesced : Coalesced run)

include coalesced

/-- A thread passes to another phase of the same update, or from a phase without one to its
end. -/
lemma Coalesced.move {next : Phase Time}
    (same : next.update? = (run.phase reader).update?) (begun : next ≠ .idle)
    (unwaiting : ∀ update, next ≠ .waiting update) : Coalesced (run.move reader next) := by
  have updates : ∀ other, ((run.move reader next).phase other).update? =
      (run.phase other).update? := by
    intro other
    exact update?_update same other
  refine ⟨?_, ?_, ?_, coalesced.quiet, coalesced.distinct, coalesced.listed, coalesced.notified,
    ?_, coalesced.begins, ?_⟩
  · intro other update
    rw [updates]
    exact coalesced.current other update
  · intro first second
    rw [updates, updates]
    exact coalesced.single first second
  · intro inProgress
    rcases coalesced.updated inProgress with ⟨updater, isUpdater⟩
    exact ⟨updater, (updates updater).trans isUpdater⟩
  · intro other update isWaiting
    exact coalesced.waits other update (of_update_eq isWaiting (unwaiting update)).2
  · intro other isIdle
    exact coalesced.idle other (of_update_eq isIdle begun).2

lemma Coalesced.begin (free : run.node.operationInProgress = false) :
    Coalesced (run.register reader) := by
  have untouched : ∀ other, (run.phase other).update? = none := by
    intro other
    cases isUpdate : (run.phase other).update? with
    | none => rfl
    | some update =>
      have inProgress := (coalesced.current other update isUpdate).2
      rw [free] at inProgress
      cases inProgress
  have noted : ∀ other update, run.registered other = some update ->
      run.notices other = [update] := by
    intro other update isRegistered
    rcases coalesced.notified other update isRegistered with once | ⟨-, -, inProgress⟩
    · exact once
    · rw [free] at inProgress
      cases inProgress
  have others : ∀ other, other ≠ reader ->
      Function.update run.phase reader (.updating (run.current + 1)) other = run.phase other :=
    fun other differs => update_of_ne differs _ _
  unfold register CacheNode.registerNotificationIfUpdateInProgress
  simp only [free, Bool.not_false, if_true]
  refine ⟨?_, ?_, ?_, ?_, ?_, ?_, ?_, ?_, coalesced.begins, ?_⟩
  · intro other update isUpdate
    by_cases isReader : other = reader
    · simp only [isReader, update_self, Phase.update?, Option.some.injEq] at isUpdate
      exact ⟨isUpdate.symm, rfl⟩
    · simp only [others other isReader, untouched] at isUpdate
      cases isUpdate
  · have only : ∀ other, (Function.update run.phase reader
        (.updating (run.current + 1)) other).update?.isSome = true -> other = reader := by
      intro other isUpdate
      by_contra isOther
      rw [others other isOther, untouched] at isUpdate
      cases isUpdate
    intro first second isFirst isSecond
    exact (only first isFirst).trans (only second isSecond).symm
  · intro _
    exact ⟨reader, by simp only [update_self, Phase.update?]⟩
  · exact fun unstarted => nomatch unstarted
  · exact coalesced.distinct
  · intro other
    rw [coalesced.quiet free]
    constructor
    · exact fun member => nomatch member
    · rintro ⟨isRegistered, unnoticed⟩
      rw [noted other _ isRegistered] at unnoticed
      cases unnoticed
  · exact fun other update isRegistered => .inl (noted other update isRegistered)
  · intro other update isWaiting
    exact coalesced.waits other update (of_update_eq isWaiting nofun).2
  · intro other isIdle
    exact coalesced.idle other (of_update_eq isIdle nofun).2

/-- A thread leaves its notification for the update that is in progress. -/
lemma Coalesced.join (isIdle : run.phase reader = .idle)
    (busy : run.node.operationInProgress = true) : Coalesced (run.register reader) := by
  have unregistered := coalesced.idle reader isIdle
  have unnoticed := coalesced.begins reader unregistered
  have unlisted : reader ∉ run.node.notifications := by
    rw [coalesced.listed, unregistered]
    exact fun listed => nomatch listed.1
  have updates : ∀ other, (Function.update run.phase reader
      (.waiting run.current) other).update? = (run.phase other).update? :=
    update?_update (by rw [isIdle]; rfl)
  have elsewhere : ∀ other, other ≠ reader ->
      Function.update run.registered reader (some run.current) other = run.registered other :=
    fun other differs => update_of_ne differs _ _
  unfold register CacheNode.registerNotificationIfUpdateInProgress
  simp only [busy, Bool.not_true, Bool.false_eq_true, if_false]
  refine ⟨?_, ?_, ?_, ?_, ?_, ?_, ?_, ?_, ?_, ?_⟩
  · intro other update isUpdate
    rw [updates] at isUpdate
    exact ⟨(coalesced.current other update isUpdate).1, rfl⟩
  · intro first second
    rw [updates, updates]
    exact coalesced.single first second
  · intro _
    rcases coalesced.updated busy with ⟨updater, isUpdater⟩
    exact ⟨updater, (updates updater).trans isUpdater⟩
  · exact fun unstarted => nomatch unstarted
  · rw [<- concat_eq_append]
    exact coalesced.distinct.concat unlisted
  · intro other
    rw [mem_append, coalesced.listed]
    by_cases isReader : other = reader
    · simp [isReader, unnoticed]
    · simp [isReader]
  · intro other update isRegistered
    by_cases isReader : other = reader
    · simp only [isReader, update_self, Option.some.injEq] at isRegistered
      rw [isReader]
      exact .inr ⟨unnoticed, isRegistered.symm, rfl⟩
    · simp only [elsewhere other isReader] at isRegistered
      rcases coalesced.notified other update isRegistered with once | ⟨none, isCurrent, -⟩
      · exact .inl once
      · exact .inr ⟨none, isCurrent, rfl⟩
  · intro other update isWaiting
    by_cases isReader : other = reader
    · simp only [isReader, update_self] at isWaiting
      cases isWaiting
      simp only [isReader, update_self]
    · simp only [update_of_ne isReader] at isWaiting
      simp only [elsewhere other isReader]
      exact coalesced.waits other update isWaiting
  · intro other isNone
    exact coalesced.begins other (of_update_eq isNone nofun).2
  · intro other isIdleAfter
    rcases of_update_eq isIdleAfter nofun with ⟨isOther, wasIdle⟩
    exact (elsewhere other isOther).trans (coalesced.idle other wasIdle)

lemma Coalesced.publish {update : Nat} {result : StatusOr Response}
    {updateTime : Option Time} (fetched : run.phase reader = .fetched update result updateTime) :
    Coalesced (run.publish reader update result updateTime) := by
  have isUpdate : (run.phase reader).update? = some update := by rw [fetched]; rfl
  have isCurrent := (coalesced.current reader update isUpdate).1
  have unlisted : ∀ other, run.notices other ≠ [] ∨ run.registered other = none ->
      run.node.notifications.count other = 0 := by
    intro other reason
    rw [count_eq_zero, coalesced.listed]
    rintro ⟨isRegistered, unnoticed⟩
    rcases reason with noticed | unregistered
    · exact noticed unnoticed
    · rw [unregistered] at isRegistered
      cases isRegistered
  have noted : ∀ other number, run.registered other = some number ->
      run.notices other ++ replicate (run.node.notifications.count other) update = [number] := by
    intro other number isRegistered
    rcases coalesced.notified other number isRegistered with once | ⟨none, rfl, -⟩
    · rw [unlisted other (.inl (by rw [once]; simp)), once]
      rfl
    · have listed := (coalesced.listed other).mpr ⟨isRegistered, none⟩
      rw [count_eq_one_of_mem coalesced.distinct listed, none, isCurrent]
      rfl
  have others : ∀ other, other ≠ reader -> (run.phase other).update? = none := by
    intro other differs
    cases found : (run.phase other).update? with
    | none => rfl
    | some number =>
      have same := coalesced.single other reader (by rw [found]; rfl) (by rw [isUpdate]; rfl)
      exact absurd same differs
  have finished : ∀ other, (Function.update run.phase reader (.served result true)
      other).update? = none := by
    intro other
    by_cases isReader : other = reader
    · rw [isReader, update_self]
      rfl
    · rw [update_of_ne isReader]
      exact others other isReader
  unfold NodeRun.publish CacheNode.publish
  refine ⟨?_, ?_, ?_, ?_, ?_, ?_, ?_, ?_, ?_, ?_⟩
  · intro other number found
    rw [finished] at found
    cases found
  · intro first second found
    rw [finished] at found
    cases found
  · exact fun busy => nomatch busy
  · exact fun _ => rfl
  · exact nodup_nil
  · intro other
    constructor
    · exact fun member => nomatch member
    · rintro ⟨isRegistered, unnoticed⟩
      exact absurd ((noted other _ isRegistered).symm.trans unnoticed) (cons_ne_nil _ _)
  · exact fun other number isRegistered => .inl (noted other number isRegistered)
  · intro other number isWaiting
    exact coalesced.waits other number (of_update_eq isWaiting nofun).2
  · intro other unregistered
    simp only [unlisted other (.inr unregistered), coalesced.begins other unregistered,
      replicate_zero, append_nil]
  · intro other isIdle
    exact coalesced.idle other (of_update_eq isIdle nofun).2

end

end

lemma coalesced_start {node : CacheNode Time Duration Reader} (new : node.New) :
    Coalesced (start node) := by
  rcases new.quiet with ⟨free, unlisted⟩
  refine ⟨?_, ?_, ?_, fun _ => unlisted, ?_, ?_, ?_, ?_, ?_, ?_⟩
  · exact fun _ _ found => nomatch found
  · exact fun _ _ found => nomatch found
  · intro busy
    change node.operationInProgress = true at busy
    rw [free] at busy
    cases busy
  · change node.notifications.Nodup
    rw [unlisted]
    exact nodup_nil
  · intro reader
    change reader ∈ node.notifications ↔ _
    rw [unlisted]
    exact ⟨fun member => (nomatch member), fun listed => (nomatch listed.1)⟩
  · exact fun _ _ found => nomatch found
  · exact fun _ _ found => nomatch found
  · exact fun _ _ => rfl
  · exact fun _ _ => rfl

section

variable [DecidableEq Reader] [LinearOrder Time] [HAdd Time Duration Time]

lemma Coalesced.step {run next : NodeRun Reader Time Duration} (coalesced : Coalesced run)
    (step : Step run next) : Coalesced next := by
  have register : ∀ reader, run.phase reader = .idle -> Coalesced (run.register reader) := by
    intro reader isIdle
    cases busy : run.node.operationInProgress with
    | false => exact coalesced.begin busy
    | true => exact coalesced.join isIdle busy
  cases step with
  | hit idle recent =>
    exact coalesced.move (by rw [idle]; rfl) (fun no => nomatch no) (fun _ no => nomatch no)
  | registerCached idle old => exact register _ idle
  | registerUncached idle => exact register _ idle
  | request updates =>
    exact coalesced.move (by rw [updates]; rfl) (fun no => nomatch no) (fun _ no => nomatch no)
  | reply requests result now =>
    exact coalesced.move (by rw [requests]; rfl) (fun no => nomatch no) (fun _ no => nomatch no)
  | publish fetched => exact coalesced.publish fetched
  | wake waits notified =>
    exact coalesced.move (by rw [waits]; rfl) (fun no => nomatch no) (fun _ no => nomatch no)

variable {run : NodeRun Reader Time Duration}

lemma coalesced_run {node : CacheNode Time Duration Reader} (new : node.New)
    (reached : Relation.ReflTransGen Step (start node) run) : Coalesced run := by
  induction reached with
  | refl => exact coalesced_start new
  | tail reached step ih => exact ih.step step

variable {reader : Reader}

lemma served_of_notified {update : Nat} (waits : run.phase reader = .waiting update)
    (notified : run.notices reader ≠ []) :
    ∃ later, Relation.ReflTransGen Step run later ∧
      ∃ result, later.phase reader = .served result true :=
  ⟨_, .single (.wake waits notified), run.node.result, by rw [move_phase, update_self]⟩

lemma served_of_fetched {updater : Reader} {update number : Nat} {result : StatusOr Response}
    {updateTime : Option Time} (waits : run.phase reader = .waiting update)
    (listed : reader ∈ run.node.notifications)
    (fetched : run.phase updater = .fetched number result updateTime) :
    ∃ later, Relation.ReflTransGen Step run later ∧
      ∃ result, later.phase reader = .served result true := by
  have differs : reader ≠ updater := by
    rintro rfl
    rw [waits] at fetched
    cases fetched
  have stillWaits : (run.publish updater number result updateTime).phase reader = .waiting update :=
    (update_of_ne differs _ _).trans waits
  have notified : (run.publish updater number result updateTime).notices reader ≠ [] := by
    have counted := count_pos_iff.mpr listed
    rw [NodeRun.publish]
    simp only [ne_eq, append_eq_nil_iff, replicate_eq_nil_iff]
    omega
  rcases served_of_notified stillWaits notified with ⟨later, reached, served⟩
  exact ⟨later, .head (.publish fetched) reached, served⟩

lemma served_of_requesting {updater : Reader} {update number : Nat} (now : Time)
    (waits : run.phase reader = .waiting update) (listed : reader ∈ run.node.notifications)
    (requests : run.phase updater = .requesting number) :
    ∃ later, Relation.ReflTransGen Step run later ∧
      ∃ result, later.phase reader = .served result true := by
  have differs : reader ≠ updater := by
    rintro rfl
    rw [waits] at requests
    cases requests
  let result : StatusOr Response := .error ⟨.unknown, []⟩
  let next := run.move updater (.fetched number result (run.node.updateTime result now))
  have stillWaits : next.phase reader = .waiting update := (update_of_ne differs _ _).trans waits
  rcases served_of_fetched stillWaits listed (update_self _ _ _) with ⟨later, reached, served⟩
  exact ⟨later, .head (.reply requests result now) reached, served⟩

/-- Whatever the order of their steps, no thread that reads a node is lost. -/
theorem cacheNode_loses_no_reader [Inhabited Time] {node : CacheNode Time Duration Reader}
    {run : NodeRun Reader Time Duration} (new : node.New)
    (reached : Relation.ReflTransGen Step (start node) run) : LosesNoReader run := by
  have coalesced := coalesced_run new reached
  refine ⟨?_, ?_, coalesced.quiet, ?_⟩
  · intro first second firstUpdate secondUpdate isFirst isSecond
    apply coalesced.single first second
    · rw [isFirst]
      rfl
    · rw [isSecond]
      rfl
  · intro reader update isRegistered
    rcases coalesced.notified reader update isRegistered with once | ⟨none, rfl, busy⟩
    · exact .inl once
    · have listed := (coalesced.listed reader).mpr ⟨isRegistered, none⟩
      exact .inr ⟨none, List.count_eq_one_of_mem coalesced.distinct listed, coalesced.updated busy⟩
  · intro reader update waits
    have isRegistered := coalesced.waits reader update waits
    rcases coalesced.notified reader update isRegistered with once | ⟨none, rfl, busy⟩
    · exact served_of_notified waits (by rw [once]; exact List.cons_ne_nil _ _)
    · have listed := (coalesced.listed reader).mpr ⟨isRegistered, none⟩
      rcases coalesced.updated busy with ⟨updater, isUpdater⟩
      cases phase : run.phase updater with
      | updating number =>
        have differs : reader ≠ updater := by
          rintro rfl
          rw [waits] at phase
          cases phase
        have stillWaits : (run.move updater (.requesting number)).phase reader =
            .waiting run.current :=
          (update_of_ne differs _ _).trans waits
        rcases served_of_requesting default stillWaits listed (update_self _ _ _) with
          ⟨later, reached, served⟩
        exact ⟨later, .head (.request phase) reached, served⟩
      | requesting number => exact served_of_requesting default waits listed phase
      | fetched number result updateTime => exact served_of_fetched waits listed phase
      | idle =>
        rw [phase] at isUpdater
        cases isUpdater
      | waiting number =>
        rw [phase] at isUpdater
        cases isUpdater
      | served result isFresh =>
        rw [phase] at isUpdater
        cases isUpdater

end

/-- A reader that finds another one at work. -/
theorem cacheNode_loses_no_reader_pair :
    let node : CacheNode Nat Nat Bool := .fresh (text "/a") none 5
    let run := ((start node).register false).register true
    run.node.notifications = [true] ∧ LosesNoReader run := by
  intro node run
  have first : Step (start node) ((start node).register false) := .registerUncached rfl
  have second : Step ((start node).register false) run := .registerUncached rfl
  have reached : Relation.ReflTransGen Step (start node) run := .tail (.single first) second
  exact ⟨rfl, cacheNode_loses_no_reader (.fresh (text "/a") none 5) reached⟩

end NodeRun

end Ecclesia.Transport
