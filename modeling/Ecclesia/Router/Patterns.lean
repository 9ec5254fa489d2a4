import Ecclesia.Predicates.VariableSubstitution
import Ecclesia.Router.Selection
import Ecclesia.Thread.ThreadPool

namespace Ecclesia.Router

open Absl Predicates Thread List

/-!
# Execution patterns

A router executes queries on its servers one after the other, or hands them to a thread pool: all
queries of a server in one batch, or each in its own.  The definitions follow `query_router.cc`;
the query engines are given.
-/

def parseVersion (bmcVersionString : Text) : StatusOr (Int × Int × Int) :=
  let invalid := .error (.invalidArgument (text "Invalid bmc version string"))
  let kGbmcReleasePrefix := text "gbmc-release-"
  if !startsWith bmcVersionString kGbmcReleasePrefix then invalid
  else
    match strSplit '.' (bmcVersionString.drop kGbmcReleasePrefix.length) with
    | year :: week :: rc :: _ =>
      match simpleAtoi32 year, simpleAtoi32 week, simpleAtoi32 rc with
      | some year, some week, some rc => .ok (year, week, rc)
      | _, _, _ => invalid
    | _ => invalid

/-- Both versions are known, and the first is less in the order of tuples. -/
def isLess (first second : StatusOr (Int × Int × Int)) : Bool :=
  match first, second with
  | .ok (year, week, rc), .ok (otherYear, otherWeek, otherRc) =>
    year < otherYear || (year == otherYear &&
      (week < otherWeek || (week == otherWeek && rc < otherRc)))
  | _, _ => false

def isBmcVersionCompatible (bmcVersion : BmcVersion) (bmcVersionString : Text) : Bool :=
  let current := parseVersion bmcVersionString
  !bmcVersion.minVersion.any (fun version => isLess current (parseVersion version)) &&
    !bmcVersion.maxVersion.any fun version => isLess (parseVersion version) current

abbrev QueryVariableSet := HashMap Text QueryVariables

/-- `QueryRoutingInfo`, with what `ExecuteRedpathQuery` of its engine returns for the ids. -/
structure QueryRoutingInfo (Result : Type) where
  serverInfo : ServerInfo
  executeRedpathQuery : List Text -> QueryVariableSet -> List (Text × Result)
  queryIds : List Text
  nodeLocalSystemId : Option Text
  queryIdToBmcVersion : HashMap Text BmcVersion

structure RouterQueryOptions where
  queryIds : List Text
  queryArguments : QueryVariableSet
  serverInfoToBmcVersion : HashMap ServerInfo Text

def createQueryArgumentsWithSystemId (queryIds : List Text) (queryArguments : QueryVariableSet)
    (nodeLocalSystemId : Text) : QueryVariableSet :=
  if (queryArguments.lookup (text "SYSTEM_ID")).isSome then queryArguments
  else
    queryIds.foldl (fun arguments queryId =>
      arguments.pushBack queryId (text "SYSTEM_ID", [nodeLocalSystemId])) queryArguments

/-- A call of the callback: the server, the query id, and the result unless it was cancelled. -/
abbrev Callback (Result : Type) := ServerInfo × Text × Option Result

abbrev QueryBatch (Result : Type) := QueryRoutingInfo Result × List Text

/-- Whether the cancellation has been seen: it is not asked for again once it was seen. -/
def seenCancelled (isCancelled : Nat -> Bool) : Nat -> Bool
  | 0 => isCancelled 0
  | turn + 1 => seenCancelled isCancelled turn || isCancelled (turn + 1)

section

variable {Result : Type} (options : RouterQueryOptions)

/-- The `query_arguments` of the options that `ExecuteQueries` makes. -/
def redpathQueryArguments (info : QueryRoutingInfo Result) (queries : List Text) :
    QueryVariableSet :=
  match info.nodeLocalSystemId with
  | some systemId => createQueryArgumentsWithSystemId queries options.queryArguments systemId
  | none => options.queryArguments

def executeQueries (info : QueryRoutingInfo Result) (queries : List Text)
    (isQueryCancelled : Bool) : List (Callback Result) :=
  if isQueryCancelled then queries.map fun queryId => (info.serverInfo, queryId, none)
  else
    (info.executeRedpathQuery queries (redpathQueryArguments options info queries)).map
      fun result => (info.serverInfo, result.1, some result.2)

def canIncludeQuery (queryId : Text) (info : QueryRoutingInfo Result) : Bool :=
  match options.serverInfoToBmcVersion.lookup info.serverInfo,
    info.queryIdToBmcVersion.lookup queryId with
  | some bmcVersionString, some bmcVersion => isBmcVersionCompatible bmcVersion bmcVersionString
  | _, _ => true

/-- The requested queries that a server executes. -/
def queriesFor (info : QueryRoutingInfo Result) : List Text :=
  options.queryIds.filter fun queryId =>
    info.queryIds.contains queryId && canIncludeQuery options queryId info

variable (isCancelled : Nat -> Bool) (routingTable : List (QueryRoutingInfo Result))

def executeQuerySerialAll : List (Callback Result) :=
  routingTable.zipIdx.flatMap fun (info, turn) =>
    let queries := queriesFor options info
    if queries.isEmpty then []
    else executeQueries options info queries (seenCancelled isCancelled turn)

/-- The batches of `ExecuteQuerySerialAgent`. -/
def agentBatches : List (QueryBatch Result) :=
  (routingTable.map fun info => (info, queriesFor options info)).filter
    fun batch => !batch.2.isEmpty

/-- The batches of `ExecuteQueryParallelAll`. -/
def singleBatches : List (QueryBatch Result) :=
  routingTable.flatMap fun info => (queriesFor options info).map fun queryId => (info, [queryId])

/-- What `ExecuteQueryBatches` schedules: the batches with the cancellation as seen before. -/
def batchWork (batches : List (QueryBatch Result)) : List (QueryBatch Result × Bool) :=
  batches.zipIdx.map fun (batch, turn) => (batch, seenCancelled isCancelled turn)

/-- The calls in a run of `ExecuteQueryBatches`, which returns once the thread pool is joined. -/
def ExecuteQueryBatches (maxConcurrentThreads : Nat) (batches : List (QueryBatch Result))
    (calls : List (Callback Result)) : Prop :=
  ∃ state : PoolState (QueryBatch Result × Bool) (min batches.length maxConcurrentThreads),
    Thread.Reached (fun _ _ => True) state ∧ Returned state ∧
      state.scheduled = batchWork isCancelled batches ∧
      calls.Perm (state.started.flatMap fun work =>
        executeQueries options work.1.1 work.1.2 work.2)

/-- The calls in a run of `ExecuteQuery`, one case for each `QueryPattern`. -/
inductive ExecuteQuery (maxConcurrentThreads : Nat) : List (Callback Result) -> Prop
  | serialAll :
      ExecuteQuery maxConcurrentThreads (executeQuerySerialAll options isCancelled routingTable)
  | serialAgent {calls : List (Callback Result)} (positive : 0 < maxConcurrentThreads)
      (executed : ExecuteQueryBatches options isCancelled maxConcurrentThreads
        (agentBatches options routingTable) calls) : ExecuteQuery maxConcurrentThreads calls
  | parallelAll {calls : List (Callback Result)} (positive : 0 < maxConcurrentThreads)
      (executed : ExecuteQueryBatches options isCancelled maxConcurrentThreads
        (singleBatches options routingTable) calls) : ExecuteQuery maxConcurrentThreads calls

/-- What is reported for each server and each requested query that it executes. -/
def forRequested {Item : Type} (report : QueryRoutingInfo Result -> Text -> Item) : List Item :=
  routingTable.flatMap fun info => (queriesFor options info).map (report info)

/-- The engine returns one result for each of some distinct queries that it has. -/
def QueryRoutingInfo.AnswersEach (info : QueryRoutingInfo Result) : Prop :=
  ∀ queries ⊆ info.queryIds, queries.Nodup -> ∀ arguments,
    ((info.executeRedpathQuery queries arguments).map Prod.fst).Perm queries

/-- Each result depends on the query and its variables, not on what else is executed. -/
def QueryRoutingInfo.AnswersBy (info : QueryRoutingInfo Result)
    (answer : Text -> QueryVariables -> Result) : Prop :=
  ∀ queries ⊆ info.queryIds, queries.Nodup -> ∀ arguments,
    (info.executeRedpathQuery queries arguments).Perm
      (queries.map fun queryId => (queryId, answer queryId (arguments.listAt queryId)))

variable {options isCancelled routingTable}

lemma queriesFor_known (info : QueryRoutingInfo Result) :
    queriesFor options info ⊆ info.queryIds := by
  intro queryId member
  have included := of_mem_filter member
  exact contains_iff_mem.mp (Bool.and_eq_true_iff.mp included).1

section

variable {Item : Type} {observe : Callback Result -> Item}
  {report : QueryRoutingInfo Result -> Text -> Item}

lemma flatMap_agentBatches (table : List (QueryRoutingInfo Result)) :
    (agentBatches options table).flatMap (fun batch => batch.2.map (report batch.1)) =
      forRequested options table report := by
  induction table with
  | nil => rfl
  | cons info rest ih =>
    rw [agentBatches, map_cons, filter_cons, forRequested, flatMap_cons]
    cases queriesFor options info with
    | nil => exact ih
    | cons queryId others => exact congrArg _ ih

lemma flatMap_singleBatches (table : List (QueryRoutingInfo Result)) :
    (singleBatches options table).flatMap (fun batch => batch.2.map (report batch.1)) =
      forRequested options table report := by
  rw [singleBatches, flatMap_assoc]
  refine flatMap_congr fun info _ => ?_
  rw [flatMap_map, map_eq_flatMap]
  rfl

variable (reports : ∀ info ∈ routingTable, ∀ queries,
  queries.Sublist (queriesFor options info) -> ∀ turn,
    ((executeQueries options info queries (seenCancelled isCancelled turn)).map observe).Perm
      (queries.map (report info)))

include reports

lemma ExecuteQueryBatches.observed {batches : List (QueryBatch Result)} {maxConcurrentThreads : Nat}
    {calls : List (Callback Result)} (positive : 0 < maxConcurrentThreads)
    (fit : ∀ batch ∈ batches, batch.1 ∈ routingTable ∧ batch.2.Sublist (queriesFor options batch.1))
    (executed : ExecuteQueryBatches options isCancelled maxConcurrentThreads batches calls) :
    (calls.map observe).Perm (batches.flatMap fun batch => batch.2.map (report batch.1)) := by
  rcases executed with ⟨state, reached, returned, scheduled, interleaved⟩
  have started : state.started.Perm (batchWork isCancelled batches) := by
    rw [<- scheduled]
    refine reached.started_perm returned ?_
    intro none
    have empty : batches = [] := length_eq_zero_iff.mp (by omega)
    rw [scheduled, empty]
    rfl
  have called := (interleaved.trans (started.flatMap_right _)).map observe
  rw [map_flatMap, batchWork, flatMap_map] at called
  refine called.trans ?_
  rw [<- zipIdx_map_fst 0 batches, flatMap_map, zipIdx_map_fst]
  refine .flatMap_left _ fun turn member => ?_
  rcases fit _ (fst_mem_of_mem_zipIdx member) with ⟨listed, part⟩
  exact reports _ listed _ part turn.2

lemma executeQuerySerialAll_reports :
    ((executeQuerySerialAll options isCancelled routingTable).map observe).Perm
      (forRequested options routingTable report) := by
  rw [executeQuerySerialAll, map_flatMap, forRequested, <- zipIdx_map_fst 0 routingTable,
    flatMap_map, zipIdx_map_fst]
  refine .flatMap_left _ fun turn member => ?_
  have listed := fst_mem_of_mem_zipIdx member
  dsimp only
  split
  · rename_i none
    rw [List.isEmpty_iff.mp none]
    exact .rfl
  · exact reports _ listed _ (.refl _) turn.2

/-- All patterns report the same, if what is executed for some queries of a server is reported. -/
lemma ExecuteQuery.observed {maxConcurrentThreads : Nat} {calls : List (Callback Result)}
    (executed : ExecuteQuery options isCancelled routingTable maxConcurrentThreads calls) :
    (calls.map observe).Perm (forRequested options routingTable report) := by
  cases executed with
  | serialAll => exact executeQuerySerialAll_reports reports
  | serialAgent positive executed =>
    rw [<- flatMap_agentBatches]
    refine executed.observed reports positive ?_
    intro batch member
    rcases mem_map.mp (mem_filter.mp member).1 with ⟨info, listed, rfl⟩
    exact ⟨listed, .refl _⟩
  | parallelAll positive executed =>
    rw [<- flatMap_singleBatches]
    refine executed.observed reports positive ?_
    intro batch member
    rcases mem_flatMap.mp member with ⟨info, listed, member⟩
    rcases mem_map.mp member with ⟨queryId, queried, rfl⟩
    exact ⟨listed, singleton_sublist.mpr queried⟩

end

/-- Whatever the pattern, the number of threads, the order in which the threads take the batches and
the moment of a cancellation: the callback is called once for every server and every requested query
that the server has and whose version fits. -/
theorem executeQuery_calls_once (distinct : options.queryIds.Nodup)
    (answers : ∀ info ∈ routingTable, info.AnswersEach) {maxConcurrentThreads : Nat}
    {calls : List (Callback Result)}
    (executed : ExecuteQuery options isCancelled routingTable maxConcurrentThreads calls) :
    (calls.map fun call => (call.1, call.2.1)).Perm
      (forRequested options routingTable fun info queryId => (info.serverInfo, queryId)) := by
  refine executed.observed ?_
  intro info listed queries part turn
  unfold executeQueries
  cases seenCancelled isCancelled turn with
  | true =>
    rw [if_pos rfl, map_map]
    exact .rfl
  | false =>
    have each := (answers info listed queries (Subset.trans part.subset (queriesFor_known info))
      ((distinct.filter _).sublist part) (redpathQueryArguments options info queries)).map
        fun queryId => (info.serverInfo, queryId)
    rw [map_map] at each
    rwa [if_neg Bool.false_ne_true, map_map]

lemma listAt_foldl_same (queryId : Text) (variable_ : Text × List Text) (queries : List Text) :
    ∀ arguments : QueryVariableSet, (queries.foldl
        (fun arguments queryId => arguments.pushBack queryId variable_) arguments).listAt queryId =
      arguments.listAt queryId ++ replicate (queries.count queryId) variable_ := by
  induction queries with
  | nil =>
    intro arguments
    exact (append_nil _).symm
  | cons first rest ih =>
    intro arguments
    rw [foldl_cons, ih, HashMap.listAt_pushBack, count_cons]
    by_cases same : queryId = first
    · rw [same, beq_self_eq_true, if_pos rfl, if_pos rfl, append_assoc, replicate_succ]
      rfl
    · rw [beq_false_of_ne same, beq_false_of_ne (Ne.symm same)]
      rfl

/-- Of distinct queries each gets the variable once. -/
lemma redpathQueryArguments_listAt (info : QueryRoutingInfo Result) {queries : List Text}
    (distinct : queries.Nodup) {queryId : Text} (member : queryId ∈ queries) :
    (redpathQueryArguments options info queries).listAt queryId =
      (redpathQueryArguments options info [queryId]).listAt queryId := by
  unfold redpathQueryArguments createQueryArgumentsWithSystemId
  cases info.nodeLocalSystemId with
  | none => rfl
  | some systemId =>
    dsimp only
    split
    · rfl
    · rw [listAt_foldl_same, listAt_foldl_same, count_eq_one_of_mem distinct member,
        count_singleton_self]

/-- Without a cancellation all patterns call back with the same results, in some order, whatever the
number of threads is. -/
theorem executeQuery_patterns_agree (distinct : options.queryIds.Nodup)
    {answer : QueryRoutingInfo Result -> Text -> QueryVariables -> Result}
    (answers : ∀ info ∈ routingTable, info.AnswersBy (answer info))
    {threads otherThreads : Nat} {calls others : List (Callback Result)}
    (executed : ExecuteQuery options (fun _ => false) routingTable threads calls)
    (otherwise : ExecuteQuery options (fun _ => false) routingTable otherThreads others) :
    calls.Perm others := by
  have going (turn : Nat) : seenCancelled (fun _ => false) turn = false := by
    induction turn with
    | zero => rfl
    | succ turn ih => rw [seenCancelled, ih, Bool.or_false]
  have reports : ∀ calls threads,
      ExecuteQuery options (fun _ => false) routingTable threads calls -> (calls.map id).Perm (forRequested options routingTable fun info queryId =>
        (info.serverInfo, queryId, some (answer info queryId
          ((redpathQueryArguments options info [queryId]).listAt queryId)))) := by
    intro calls threads executed
    refine executed.observed ?_
    intro info listed queries part turn
    have queriesDistinct := (distinct.filter _).sublist part
    have each := (answers info listed queries (Subset.trans part.subset (queriesFor_known info))
      queriesDistinct (redpathQueryArguments options info queries)).map
        fun result => (info.serverInfo, result.1, some result.2)
    rw [executeQueries, going, if_neg Bool.false_ne_true, map_id]
    rw [map_map] at each
    refine each.trans (.of_eq (map_congr_left fun queryId member => ?_))
    dsimp only [Function.comp]
    rw [redpathQueryArguments_listAt info queriesDistinct member]
  have same := (reports _ _ executed).trans (reports _ _ otherwise).symm
  rwa [map_id, map_id] at same

end

lemma reached_one {Func : Type} (func : Func) : ∃ state : PoolState Func 1,
    Thread.Reached (fun _ _ => True) state ∧ Returned state ∧ state.scheduled = [func] ∧
      state.started = [func] := by
  have empty : Thread.Reached (fun (_ : PoolState Func 1) _ => True) threadPool := .init
  have scheduled := empty.step trivial (.schedule func rfl)
  have destroyed := scheduled.step trivial (.destroy rfl)
  have started := (destroyed.step trivial (.takeFunc 0 rfl rfl)).step trivial (.start 0 rfl)
  have left := (started.step trivial (.finish 0 rfl)).step trivial (.takeSignal 0 rfl rfl)
  refine ⟨_, left, ⟨rfl, ?_⟩, rfl, rfl⟩
  intro thread
  rw [Subsingleton.elim thread 0]
  rfl

/-- A server that answers with the variables of its only query. -/
def echoServer : QueryRoutingInfo QueryVariables where
  serverInfo := ⟨text "bmc", .bmcweb, .compute⟩
  executeRedpathQuery := fun queries arguments =>
    queries.map fun queryId => (queryId, arguments.listAt queryId)
  queryIds := [text "Q"]
  nodeLocalSystemId := some (text "system")
  queryIdToBmcVersion := .empty

def echoOptions : RouterQueryOptions := ⟨[text "Q"], .empty, .empty⟩

lemma echoServer_executes (isCancelled : Nat -> Bool) :
    ExecuteQuery echoOptions isCancelled [echoServer] 1
      (executeQueries echoOptions echoServer [text "Q"] (isCancelled 0)) := by
  rcases reached_one ((echoServer, [text "Q"]), isCancelled 0) with
    ⟨state, reached, returned, scheduled, started⟩
  refine .parallelAll Nat.one_pos ⟨state, reached, returned, scheduled, ?_⟩
  rw [started]
  exact .of_eq (append_nil _).symm

theorem executeQuery_calls_once_echo :
    ((executeQueries echoOptions echoServer [text "Q"] true).map fun call =>
      (call.1, call.2.1)).Perm (forRequested echoOptions [echoServer] fun info queryId =>
        (info.serverInfo, queryId)) := by
  refine executeQuery_calls_once (nodup_singleton _) ?_ (echoServer_executes fun _ => true)
  intro info listed queries _ _ arguments
  cases mem_singleton.mp listed
  refine .of_eq ?_
  rw [echoServer, map_map]
  exact map_id queries

theorem executeQuery_patterns_agree_echo :
    (executeQuerySerialAll echoOptions (fun _ => false) [echoServer]).Perm
      (executeQueries echoOptions echoServer [text "Q"] false) := by
  have serial : ExecuteQuery echoOptions (fun _ => false) [echoServer] 1 _ := .serialAll
  have answers : ∀ info ∈ [echoServer], info.AnswersBy fun _ arguments => arguments := by
    intro info listed queries _ _ arguments
    cases mem_singleton.mp listed
    exact .rfl
  exact executeQuery_patterns_agree (nodup_singleton _) answers serial (echoServer_executes _)

end Ecclesia.Router
