import Ecclesia.StepPlanner.Exactness
import Ecclesia.StepPlanner.Ledger

namespace Ecclesia.StepPlanner

open Absl List

/-!
# A streaming session beside one that keeps everything

A run with a callback and a run without one add the same data sets, the one to a result of
which parts are sent and cleared, the other to a result that keeps everything.  Whatever is
done to both sessions keeps them side by side.
-/

variable {Object Iterable Properties : Type}

def RunOptions.withoutCallback (options : RunOptions Properties) : RunOptions Properties :=
  { options with callback := none }

/-- A session has changed in nothing that its ledger speaks about. -/
structure Unchanged (before after : Session Object Properties) : Prop where
  added : after.added = before.added
  cleared : after.cleared = before.cleared
  strayed : after.strayed = before.strayed
  flushes : after.flushes = before.flushes
  dataSets : after.result.dataSets = before.result.dataSets
  terminated : after.terminated = before.terminated

namespace Unchanged

lemma refl (session : Session Object Properties) : Unchanged session session :=
  ⟨rfl, rfl, rfl, rfl, rfl, rfl⟩

lemma trans {first second third : Session Object Properties} (early : Unchanged first second)
    (late : Unchanged second third) : Unchanged first third where
  added := late.added.trans early.added
  cleared := late.cleared.trans early.cleared
  strayed := late.strayed.trans early.strayed
  flushes := late.flushes.trans early.flushes
  dataSets := late.dataSets.trans early.dataSets
  terminated := late.terminated.trans early.terminated

lemma mutableOutput (session : Session Object Properties) (output : SubqueryOutput) :
    Unchanged session (session.mutableOutput output) :=
  ⟨rfl, rfl, rfl, rfl, rfl, rfl⟩

lemma addSubqueryErrors (summary : SubqueryErrorSummary) (subqueryIds : List Text)
    (session : Session Object Properties) :
    Unchanged session (subqueryIds.foldl (.addSubqueryError summary) session) := by
  induction subqueryIds generalizing session with
  | nil => exact refl session
  | cons id rest ih =>
    have first : Unchanged session (session.addSubqueryError summary id) :=
      ⟨rfl, rfl, rfl, rfl, rfl, rfl⟩
    exact first.trans (ih _)

lemma populateSubqueryErrorStatus (status : Status) (subqueryIds : List Text)
    (nodeName redpath : Text) (session : Session Object Properties) :
    Unchanged session
      (session.populateSubqueryErrorStatus status subqueryIds nodeName redpath).2 := by
  unfold Session.populateSubqueryErrorStatus
  split
  · exact refl session
  · refine trans ?_ (addSubqueryErrors _ subqueryIds _)
    exact ⟨rfl, rfl, rfl, rfl, rfl, rfl⟩

variable {before after : Session Object Properties} (unchanged : Unchanged before after)

include unchanged

lemma deliveredDataSets : after.deliveredDataSets = before.deliveredDataSets := by
  simp only [Session.deliveredDataSets, Session.deliveredResults, Session.delivered,
    flatMap_append, flatMap_singleton, unchanged.flushes, unchanged.dataSets]

lemma flushed {flush : Flush Properties} (known : Flushed before flush) :
    Flushed after flush where
  tree := known.tree
  part := unchanged.added ▸ known.part
  early := unchanged.added ▸ known.early
  owner := by
    rw [unchanged.added, unchanged.strayed, unchanged.cleared]
    exact known.owner
  twice := unchanged.deliveredDataSets ▸ known.twice
  gone := unchanged.cleared ▸ known.gone
  lost := by
    rw [unchanged.added, unchanged.strayed]
    exact known.lost

lemma kept (known : Kept before) : Kept after where
  numbered := unchanged.added ▸ known.numbered
  older := unchanged.added ▸ known.older
  held := unchanged.added ▸ unchanged.dataSets ▸ known.held
  known := by
    rw [unchanged.added, unchanged.cleared, unchanged.dataSets]
    exact known.known
  tree := unchanged.dataSets ▸ known.tree
  forgotten := by
    rw [unchanged.cleared, unchanged.strayed, unchanged.flushes]
    exact known.forgotten
  flushed flush member := unchanged.flushed (known.flushed flush (unchanged.flushes ▸ member))
  even harmless := by
    rw [unchanged.strayed, unchanged.deliveredDataSets, unchanged.added]
    apply known.even
    apply harmless.before
    · exact fun flush member => unchanged.flushes ▸ member
    · exact fun dataSet member => unchanged.added ▸ member

end Unchanged

/-- A session that keeps everything and one that streams. -/
structure Alongside (whole streaming : Session Object Properties) : Prop where
  added : whole.added = streaming.added
  uncleared : whole.cleared = []
  all : whole.result.dataSets = whole.added
  wholeGoing : whole.terminated = []
  going : streaming.terminated = []
  kept : Kept streaming

/-- No flush is waiting for its data set either. -/
structure Parallel (whole streaming : Session Object Properties) : Prop
    extends Alongside whole streaming where
  settled : FlushesDone streaming

variable {whole streaming : Session Object Properties}

lemma parallel_start (queryId : Text) :
    Parallel (.start queryId : Session Object Properties) (.start queryId) where
  added := rfl
  uncleared := rfl
  all := rfl
  wholeGoing := rfl
  going := rfl
  kept := kept_start queryId
  settled _ member := absurd member not_mem_nil

variable {wholeAfter streamingAfter : Session Object Properties}

lemma Alongside.unchanged (alongside : Alongside whole streaming)
    (first : Unchanged whole wholeAfter)
    (second : Unchanged streaming streamingAfter) : Alongside wholeAfter streamingAfter where
  added := by rw [first.added, second.added, alongside.added]
  uncleared := first.cleared.trans alongside.uncleared
  all := by rw [first.dataSets, first.added, alongside.all]
  wholeGoing := first.terminated.trans alongside.wholeGoing
  going := second.terminated.trans alongside.going
  kept := second.kept alongside.kept

lemma Parallel.unchanged (parallel : Parallel whole streaming) (first : Unchanged whole wholeAfter)
    (second : Unchanged streaming streamingAfter) : Parallel wholeAfter streamingAfter where
  toAlongside := parallel.toAlongside.unchanged first second
  settled := by
    unfold FlushesDone
    rw [second.flushes, second.added]
    exact parallel.settled

section

variable (alongside : Alongside whole streaming) (output : SubqueryOutput)
  (knows : streaming.Knows output)

include alongside knows

lemma Alongside.flush : Alongside whole (streaming.flush output) where
  added := alongside.added
  uncleared := alongside.uncleared
  all := alongside.all
  wholeGoing := alongside.wholeGoing
  going := alongside.going
  kept := alongside.kept.flush knows

lemma Alongside.addDataSet (content : DataSetContent Properties)
    (pending : ∀ flush ∈ streaming.flushes,
      flush.address = streaming.added.length -> flush.output.1 = output.1) :
    Parallel (whole.addDataSet output content) (streaming.addDataSet output content) := by
  have there : output.1 ∉ whole.cleared.map some := by
    rw [alongside.uncleared]
    exact not_mem_nil
  constructor
  · constructor
    · rw [added_addDataSet, added_addDataSet, alongside.added]
    · rw [addDataSet_of_there there]
      exact alongside.uncleared
    · rw [addDataSet_of_there there]
      simp only [alongside.all]
    · rw [Session.terminated_addDataSet, alongside.wholeGoing]
    · rw [Session.terminated_addDataSet, alongside.going]
    · exact alongside.kept.addDataSet knows content pending
  · intro flush member
    rw [flushes_addDataSet] at member
    rw [added_addDataSet, length_append]
    exact Nat.lt_succ_of_le (alongside.kept.flushed flush member).early

end

lemma Parallel.addDataSet (parallel : Parallel whole streaming) (output : SubqueryOutput)
    (knows : streaming.Knows output) (content : DataSetContent Properties) :
    Parallel (whole.addDataSet output content) (streaming.addDataSet output content) := by
  apply parallel.toAlongside.addDataSet output knows content
  intro flush member waiting
  exact absurd waiting (Nat.ne_of_lt (parallel.settled flush member))

/-- A result of a step and its session, beside those of another run. -/
structure Paired {Result : Type} (Known : Nat -> Result -> Prop) (size : Nat)
    (first second : Stepped Object Properties Result) : Prop where
  same : first.1 = second.1
  parallel : Parallel first.2 second.2
  grown : size <= second.2.added.length
  known : Known second.2.added.length second.1

/-- A data set that has been added, if there is one. -/
def KnownDataSet (size : Nat) (dataSet : Option Nat) : Prop :=
  ∀ address, dataSet = some address -> address < size

variable {callback : Option (Callback Properties)} {parent : Option Nat}

section

variable (parallel : Parallel whole streaming)

include parallel

lemma Parallel.addNormalized (sizes : Sizes Properties)
    (continues : ∀ given, callback = some given -> ∀ results, given results = true)
    (subquery : Subquery) (knows : KnownDataSet streaming.added.length parent)
    (properties : Properties) :
    Paired KnownDataSet streaming.added.length
      (whole.addNormalized sizes none subquery parent properties)
      (streaming.addNormalized sizes callback subquery parent properties) := by
  have notExceeded : (whole.mutableOutput (parent, subquery.subqueryId)).exceeded sizes none
      subquery properties = none := by
    unfold Session.exceeded
    split
    next given => cases given
    next => rfl
  have opened := parallel.unchanged
    (.mutableOutput whole (parent, subquery.subqueryId))
    (.mutableOutput streaming (parent, subquery.subqueryId))
  have sameAddress : whole.added.length = streaming.added.length := by rw [parallel.added]
  unfold Session.addNormalized
  simp only [notExceeded]
  split
  next =>
    constructor
    · exact congrArg some sameAddress
    · exact opened.addDataSet (parent, subquery.subqueryId) knows _
    · simp [Session.mutableOutput]
    · rintro address isLast
      cases isLast
      simp
  next given exceeds =>
    have isGiven : callback = some given := by
      unfold Session.exceeded at exceeds
      split at exceeds
      next limit found =>
        split at exceeds
        · exact exceeds
        · cases exceeds
      next => cases exceeds
    rw [continues given isGiven]
    have flushed := opened.toAlongside.flush (parent, subquery.subqueryId) knows
    constructor
    · exact congrArg some sameAddress
    · apply flushed.addDataSet (parent, subquery.subqueryId) knows
      intro flush member waiting
      rcases mem_append.mp member with before | last
      · exact absurd waiting (Nat.ne_of_lt (opened.settled flush before))
      · rw [mem_singleton.mp last]
    · simp [Session.flush, Session.clearOutput, Session.mutableOutput]
    · rintro address isLast
      cases isLast
      simp

/-- What `Normalize` returns when it finds properties. -/
lemma Parallel.normalize (sizes : Sizes Properties)
    (continues : ∀ given, callback = some given -> ∀ results, given results = true)
    (object : Object) (subquery : Subquery) (knows : KnownDataSet streaming.added.length parent)
    (found : StatusOr Properties) :
    Paired (fun size outcome => ∀ dataSet, outcome = .ok dataSet -> KnownDataSet size dataSet)
      streaming.added.length (whole.normalize sizes none object subquery parent found)
      (streaming.normalize sizes callback object subquery parent found) := by
  have called : Parallel
      { whole with normalized := whole.normalized ++ [(subquery.subqueryId, object)] }
      { streaming with normalized := streaming.normalized ++ [(subquery.subqueryId, object)] } :=
    parallel.unchanged ⟨rfl, rfl, rfl, rfl, rfl, rfl⟩ ⟨rfl, rfl, rfl, rfl, rfl, rfl⟩
  cases found with
  | error status => exact ⟨rfl, called, le_refl _, fun _ impossible => by cases impossible⟩
  | ok properties =>
    have added := called.addNormalized sizes continues subquery knows properties
    refine ⟨congrArg Except.ok added.same, added.parallel, added.grown, ?_⟩
    intro dataSet isOk
    cases isOk
    exact added.known

lemma Parallel.addRawData (raw : Text) (subquery : Subquery)
    (knows : KnownDataSet streaming.added.length parent) :
    Parallel (whole.addRawData raw subquery parent) (streaming.addRawData raw subquery parent) ∧
      streaming.added.length <= (streaming.addRawData raw subquery parent).added.length := by
  unfold Session.addRawData Session.isSubqueryTerminated
  cases subquery.fetchRawData with
  | none => exact ⟨parallel, le_refl _⟩
  | some type =>
    simp only [parallel.wholeGoing, parallel.going]
    constructor
    · exact (parallel.unchanged (.mutableOutput whole _)
        (.mutableOutput streaming _)).addDataSet (parent, subquery.subqueryId) knows _
    · simp [Session.mutableOutput]

end

end Ecclesia.StepPlanner
