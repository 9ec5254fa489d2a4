import Ecclesia.Normalizer.Fields
import Ecclesia.Planner.Table

namespace Ecclesia.Normalizer

open Absl
open Planner (kIdentifierTag)

/-!
# Chains of normalisers, and machine barepaths

A chain runs its normalisers one after the other on one data set.  The normaliser behind the
default one looks up the machine devpath of a resource, and to this end asks once more whether
the resource is a root chassis.
-/

variable {World : Type}

/-- The loop of `RedpathNormalizer::Normalize`. -/
def runChain : List (QueryResultData -> StateM World (Evaluation QueryResultData)) ->
    QueryResultData -> StateM World (Evaluation QueryResultData)
  | [], dataSet => return .ok dataSet
  | impl :: rest, dataSet => do
      match <- impl dataSet with
      | .error failure => return .error failure
      | .ok changed => runChain rest changed

/-- `RedpathNormalizer::Normalize`, for the normalisers of the chain at a resource. -/
def normalizeChain (implChain : List (QueryResultData -> StateM World (Evaluation QueryResultData)))
    (dataSet : QueryResultData) (returnErrorOnEmptyDataset : Bool) :
    StateM World (Evaluation QueryResultData) :=
  if implChain.isEmpty then return .error (.status (.notFound (text "No normalizers added")))
  else do
    match <- runChain implChain dataSet with
    | .error failure => return .error failure
    | .ok changed =>
      if returnErrorOnEmptyDataset && changed.isEmpty then
        return .error (.status (.notFound (text "Resulting dataset is empty")))
      else return .ok changed

/-- `IdAssigner`, for query results. -/
structure IdAssigner (World : Type) where
  idForLocalDevpathInQueryResult : QueryResultData -> StateM World (StatusOr Text)
  idForRedfishLocationInQueryResult : QueryResultData -> Bool -> StateM World (StatusOr Text)

def heldIdentifier (dataSet : QueryResultData) : Identifier :=
  ((dataSet.lookup kIdentifierTag).bind QueryValue.identifier?).getD .empty

variable {Object Iterable : Type} (views : RedfishViews World Object Iterable)
  (idAssigner : IdAssigner World) (useRedfishLocationAsFallback : Bool)

/-- The call of `IsRootChassis` for a data set. -/
def checkRootChassis (object : Object) (dataSet : QueryResultData) : StateM World Bool := do
  let resourceType <- views.getNodeValue object (text "@odata.type")
  return isRootChassis (resourceType.getD []) (heldIdentifier dataSet)

/-- The search for a machine devpath.  The local devpath comes first. -/
def findMachineDevpath (hasLocalDevpath isRoot : Bool) (dataSet : QueryResultData) :
    StateM World (StatusOr Text) := do
  let machineDevpath <-
    if hasLocalDevpath then idAssigner.idForLocalDevpathInQueryResult dataSet
    else return .error ⟨.unknown, []⟩
  if useRedfishLocationAsFallback && (machineDevpath.toOption.getD []).isEmpty then
    idAssigner.idForRedfishLocationInQueryResult dataSet isRoot
  else return machineDevpath

def storeMachineDevpath (machineDevpath : StatusOr Text) (dataSet : QueryResultData) :
    QueryResultData :=
  match machineDevpath with
  | .error _ => dataSet
  | .ok devpath =>
    if devpath.isEmpty then dataSet
    else setField kIdentifierTag
      (.identifier { heldIdentifier dataSet with machineDevpath := some devpath }) dataSet

/-- `RedpathNormalizerImplAddMachineBarepath::Normalize` -/
def addMachineBarepath (object : Object) (dataSetLocal : QueryResultData) :
    StateM World (Evaluation QueryResultData) := do
  let isRoot <- checkRootChassis views object dataSetLocal
  let hasIdentifier := (dataSetLocal.lookup kIdentifierTag).isSome
  let dataSet :=
    if !hasIdentifier && isRoot then setField kIdentifierTag (.identifier .empty) dataSetLocal
    else dataSetLocal
  let hasLocalDevpath := hasIdentifier && (heldIdentifier dataSetLocal).localDevpath.isSome
  let machineDevpath <-
    findMachineDevpath idAssigner useRedfishLocationAsFallback hasLocalDevpath isRoot dataSet
  return .ok (storeMachineDevpath machineDevpath dataSet)

end Ecclesia.Normalizer
