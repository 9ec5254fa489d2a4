import Ecclesia.Library.Assoc
import Ecclesia.Predicates.Rule
import Ecclesia.Query.Proto

namespace Ecclesia.StepPlanner

open Absl

/-!
# What a query writes

A query result is a tree: the result and every data set have an output for each subquery,
and an output has data sets.  The tree is kept as the list of its outputs and the list of
its data sets, each with the data set in which it lies.  A data set is known by the number
of data sets that were added before it.  The number stands for its address, so that it
still says which data set is meant when that one has been cleared.
-/

/-- A `SubqueryDataSet` has the properties that the normalizer found, or raw data. -/
inductive DataSetContent (Properties : Type) where
  | normalized (properties : Properties)
  | rawData (value : QueryValue)

/-- A data set of a result and the data set of which it is a child. -/
structure SubqueryDataSet (Properties : Type) where
  address : Nat
  subqueryId : Text
  parent : Option Nat
  content : DataSetContent Properties

/-- A `SubqueryOutput*`: the data set with the output, or none for the result, and the id of
the subquery. -/
abbrev SubqueryOutput := Option Nat × Text

structure SubqueryErrorSummary where
  nodeName : Text
  lastExecutedRedpath : Text
  status : Status
  errorMessage : Text

/-- `DelliciusQueryResult`, without its times and metrics. -/
structure DelliciusQueryResult (Properties : Type) where
  queryId : Text
  outputs : HashMap SubqueryOutput (Option Status)
  dataSets : List (SubqueryDataSet Properties)
  status : Option Status
  subqueryIdToErrorSummary : HashMap Text SubqueryErrorSummary
  overallErrorSummary : Text

variable {Object Properties : Type}

def DelliciusQueryResult.start (queryId : Text) : DelliciusQueryResult Properties :=
  ⟨queryId, .empty, [], none, .empty, []⟩

/-- The addresses of the data sets inside an output.  A data set comes after the one in which
it lies. -/
def addressesIn (output : SubqueryOutput) (dataSets : List (SubqueryDataSet Properties)) :
    List Nat :=
  dataSets.foldl (fun inside dataSet =>
      if (dataSet.parent, dataSet.subqueryId) = output ∨ dataSet.parent ∈ inside.map some then
        inside ++ [dataSet.address]
      else inside) []

/-- A call of the callback in the middle of a query: its result, the output that is cleared and the
data set that is added then. -/
structure Flush (Properties : Type) where
  result : DelliciusQueryResult Properties
  output : SubqueryOutput
  address : Nat

/-- The result of a query and what has happened to it. The calls of `Normalize` and the data sets
that went into a cleared data set are kept for the proofs. -/
structure Session (Object Properties : Type) where
  result : DelliciusQueryResult Properties
  added : List (SubqueryDataSet Properties)
  cleared : List Nat
  strayed : List (SubqueryDataSet Properties)
  flushes : List (Flush Properties)
  terminated : List Text
  normalized : List (Text × Object)

/-- A `callback`, which may remember what it got before. -/
abbrev Callback (Properties : Type) := List (DelliciusQueryResult Properties) -> Bool

/-- What determines the size of a message. -/
structure Sizes (Properties : Type) where
  result : DelliciusQueryResult Properties -> Nat
  dataSet : Properties -> Nat

namespace Session

def start (queryId : Text) : Session Object Properties :=
  ⟨.start queryId, [], [], [], [], [], []⟩

variable (session : Session Object Properties)

def isSubqueryTerminated (subqueryId : Text) : Bool :=
  session.terminated.contains subqueryId

def terminateSubquery (subqueryId : Text) :
    Session Object Properties :=
  { session with terminated := session.terminated ++ [subqueryId] }

variable (output : SubqueryOutput)

/-- `mutable_subquery_output_by_id()[id]`, or the same in a data set. -/
def mutableOutput : Session Object Properties :=
  { session with result := { session.result with
      outputs := session.result.outputs.assign output
        ((session.result.outputs.lookup output).getD none) } }

/-- `mutable_data_sets()->Add()`.  Nothing that is added to a cleared data set is in the result. -/
def addDataSet (content : DataSetContent Properties) : Session Object Properties :=
  let dataSet : SubqueryDataSet Properties := ⟨session.added.length, output.2, output.1, content⟩
  if dataSet.parent ∈ session.cleared.map some then
    { session with
      added := session.added ++ [dataSet]
      cleared := session.cleared ++ [dataSet.address]
      strayed := session.strayed ++ [dataSet] }
  else
    { session with
      added := session.added ++ [dataSet]
      result := { session.result with dataSets := session.result.dataSets ++ [dataSet] } }

/-- `subquery_output->Clear()` -/
def clearOutput : Session Object Properties :=
  let inside := addressesIn output session.result.dataSets
  { session with
    cleared := session.cleared ++ inside
    result := { session.result with
      outputs := (session.result.outputs.assign output none).filterKeys fun key =>
        key.1 ∉ inside.map some
      dataSets := session.result.dataSets.filter fun dataSet => dataSet.address ∉ inside } }

/-- The results that the callback has got. -/
def delivered : List (DelliciusQueryResult Properties) :=
  session.flushes.map Flush.result

/-- The result is sent and an output of it cleared. -/
def flush : Session Object Properties :=
  let sent : Session Object Properties := { session with
    flushes := session.flushes ++ [⟨session.result, output, session.added.length⟩] }
  sent.clearOutput output

variable (sizes : Sizes Properties) (callback : Option (Callback Properties))

/-- The callback, if these properties exceed the limit of the subquery, converted to `size_t`. -/
def exceeded (subquery : Subquery) (properties : Properties) : Option (Callback Properties) :=
  match subquery.maxSizeInBytes, callback with
  | some maxSizeInBytes, some callback =>
    if Predicates.toSizeT maxSizeInBytes <
        sizes.result session.result + sizes.dataSet properties then some callback
    else none
  | _, _ => none

/-- The part of `Normalize` after the properties; no data set if the callback stops the subquery. -/
def addNormalized (subquery : Subquery) (parent : Option Nat) (properties : Properties)
    : Option Nat × Session Object Properties :=
  let output : SubqueryOutput := (parent, subquery.subqueryId)
  let opened := session.mutableOutput output
  match opened.exceeded sizes callback subquery properties with
  | none => (some opened.added.length, opened.addDataSet output (.normalized properties))
  | some callback =>
    let flushed := opened.flush output
    if callback flushed.delivered then
      (some flushed.added.length, flushed.addDataSet output (.normalized properties))
    else (none, flushed.terminateSubquery subquery.subqueryId)

/-- `SubqueryHandle::Normalize`, given what the normalizer finds in the resource. -/
def normalize (object : Object) (subquery : Subquery) (parent : Option Nat)
    (found : StatusOr Properties) :
    StatusOr (Option Nat) × Session Object Properties :=
  let called := { session with
    normalized := session.normalized ++ [(subquery.subqueryId, object)] }
  match found with
  | .error status => (.error status, called)
  | .ok properties =>
    let (dataSet, after) := called.addNormalized sizes callback subquery parent properties
    (.ok dataSet, after)

end Session

def rawDataOut (raw : Text) : RawDataType -> QueryValue
  | .none => .rawUnset
  | .bytes => .rawBytes raw
  | .string => .rawString (base64Escape raw)

/-- One turn of `PopulateRawData`. -/
def Session.addRawData (raw : Text) (session : Session Object Properties) (subquery : Subquery)
    (parent : Option Nat) : Session Object Properties :=
  match subquery.fetchRawData with
  | none => session
  | some type =>
    if session.isSubqueryTerminated subquery.subqueryId then session
    else
      (session.mutableOutput (parent, subquery.subqueryId)).addDataSet
        (parent, subquery.subqueryId) (.rawData (rawDataOut raw type))

/-- `google::rpc::Code_Name`, which is also how `absl::Status` prints a code. -/
def codeName : StatusCode -> Text
  | .ok => text "OK"
  | .cancelled => text "CANCELLED"
  | .unknown => text "UNKNOWN"
  | .invalidArgument => text "INVALID_ARGUMENT"
  | .deadlineExceeded => text "DEADLINE_EXCEEDED"
  | .notFound => text "NOT_FOUND"
  | .alreadyExists => text "ALREADY_EXISTS"
  | .permissionDenied => text "PERMISSION_DENIED"
  | .resourceExhausted => text "RESOURCE_EXHAUSTED"
  | .failedPrecondition => text "FAILED_PRECONDITION"
  | .aborted => text "ABORTED"
  | .outOfRange => text "OUT_OF_RANGE"
  | .unimplemented => text "UNIMPLEMENTED"
  | .internal => text "INTERNAL"
  | .unavailable => text "UNAVAILABLE"
  | .dataLoss => text "DATA_LOSS"
  | .unauthenticated => text "UNAUTHENTICATED"

/-- `absl::Status::ToString` -/
def statusToString (status : Status) : Text :=
  if status.isOk then text "OK" else codeName status.code ++ text ": " ++ status.message

def reportedCode : StatusCode -> StatusCode
  | .unavailable => .unavailable
  | .deadlineExceeded => .deadlineExceeded
  | .unauthenticated => .unauthenticated
  | _ => .internal

/-- One turn of the loop of `PopulateSubqueryErrorStatus`: the status goes to the output in the
result. -/
def Session.addSubqueryError (summary : SubqueryErrorSummary)
    (session : Session Object Properties) (subqueryId : Text) : Session Object Properties :=
  { session with result := { session.result with
      outputs := session.result.outputs.assign (none, subqueryId) (some summary.status)
      subqueryIdToErrorSummary := session.result.subqueryIdToErrorSummary.assign subqueryId summary
      overallErrorSummary := session.result.overallErrorSummary ++
        codeName summary.status.code ++ text " error occurred for subquery " ++ subqueryId ++
        text " when processing node: " ++ summary.nodeName ++ text "\n" } }

/-- `PopulateSubqueryErrorStatus`.  Nothing is written when a node is not found. -/
def Session.populateSubqueryErrorStatus (nodeVariantStatus : Status) (subqueryIds : List Text)
    (nodeName lastExecutedRedpath : Text) (session : Session Object Properties) :
    StatusCode × Session Object Properties :=
  if nodeVariantStatus.code = .notFound then (.notFound, session)
  else
    let status : Status := ⟨reportedCode nodeVariantStatus.code,
      text "Cannot resolve NodeName " ++ nodeName ++ text " to valid Redfish object at path " ++
        lastExecutedRedpath ++ text ". Redfish Request failed with error: " ++
        statusToString nodeVariantStatus⟩
    (status.code,
      subqueryIds.foldl (addSubqueryError ⟨nodeName, lastExecutedRedpath, status,
        nodeVariantStatus.message⟩)
        { session with result := { session.result with status := some status } })

end Ecclesia.StepPlanner
