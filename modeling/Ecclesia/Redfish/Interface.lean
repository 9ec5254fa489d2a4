import Ecclesia.Json.Value

namespace Ecclesia

/-!
# Views of Redfish resources

Every access to a Redfish service returns a `RedfishVariant`: a status, which
is independent of the payload, and the views that the payload offers.  The
classes behind the views are interfaces in the program, so the types of
objects and iterables stay arbitrary here.
-/

/-- What can be asked of a `RedfishVariant`.  A missing view is a null pointer
in the program. -/
structure RedfishVariant (Object Iterable : Type) where
  status : Status
  object : Option Object
  iterable : Option Iterable
  raw : Option Text
  stringValue : Option Text

namespace RedfishVariant

variable {Object Iterable : Type}

/-- A variant that was constructed from a status alone. -/
def ofStatus (status : Status) : RedfishVariant Object Iterable :=
  ⟨status, none, none, none, none⟩

def ofObject (object : Object) : RedfishVariant Object Iterable :=
  ⟨.okStatus, some object, none, none, none⟩

def ofIterable (iterable : Iterable) : RedfishVariant Object Iterable :=
  ⟨.okStatus, none, some iterable, none, none⟩

def ofString (value : Text) : RedfishVariant Object Iterable :=
  ⟨.okStatus, none, none, none, some value⟩

end RedfishVariant

open Absl

/-!
## The Redfish service and the clock

A query runs against a Redfish service through interfaces.  Whatever is behind
them may change with every call, so every call is an action on a world of an
arbitrary type.  Reading the clock and reading the cancellation flag are such
actions too.
-/

/-- `GetParams::Freshness` -/
inductive Freshness where
  | optional
  | required
deriving DecidableEq

/-- `RedfishCachedGetterInterface::Relevance` -/
inductive Relevance where
  | relevant
  | notRelevant
deriving DecidableEq

/-- `RedfishQueryParamExpand::ExpandType` -/
inductive ExpandType where
  | both
  | notLinks
  | links
deriving DecidableEq

structure RedfishQueryParamExpand where
  type : ExpandType
  levels : Nat
deriving DecidableEq

def RedfishQueryParamExpand.toText (expand : RedfishQueryParamExpand) : Text :=
  let expandType :=
    match expand.type with
    | .both => text "*"
    | .notLinks => text "."
    | .links => text "~"
  text "$expand=" ++ expandType ++ text "($levels=" ++ strCatNat expand.levels ++ text ")"

/-- `RedfishQueryParamTop::ToString` -/
def topToText (numMembers : Nat) : Text :=
  text "$top=" ++ strCatNat numMembers

/-- `RedfishQueryParamFilter::ToString`.  A filter may be enabled and unused. -/
def filterToText (filterString : Text) : Text :=
  if filterString.isEmpty then [] else text "$filter=" ++ filterString

/-- `GetParams`.  The pointer to the timeout manager is either set or not. -/
structure GetParams where
  freshness : Freshness := .optional
  relevance : Relevance := .relevant
  autoAdjustLevels : Bool := false
  top : Option Nat := none
  expand : Option RedfishQueryParamExpand := none
  filter : Option Text := none
  timeoutManager : Bool := false
  uriPrefix : Text := []
deriving DecidableEq

namespace GetParams

def getQueryParams (params : GetParams) : List Text :=
  (params.top.map topToText).toList ++
    (params.expand.map RedfishQueryParamExpand.toText).toList ++
    (params.filter.map filterToText).toList

/-- `GetParams::ToString` -/
def toText (params : GetParams) : Text :=
  params.getQueryParams.foldl
    (fun result param => (if result.isEmpty then result else result ++ text "&") ++ param) []

end GetParams

section

variable (World Object Iterable : Type)

/-- The part of `RedfishInterface` that the planner calls. -/
structure RedfishInterface where
  getRoot : GetParams -> Text -> StateM World (RedfishVariant Object Iterable)
  cachedGetUri : Text -> GetParams -> StateM World (RedfishVariant Object Iterable)

/-- The methods of `RedfishObject` and `RedfishIterable`. -/
structure RedfishViews where
  get : Object -> Text -> GetParams -> StateM World (RedfishVariant Object Iterable)
  ensureFreshPayload : Object -> GetParams -> StateM World (StatusOr (Option Object))
  getContentAsJson : Object -> Json
  size : Iterable -> Nat
  index : Iterable -> Nat -> StateM World (RedfishVariant Object Iterable)

end

/-- `GetNodeValue<std::string>` -/
def RedfishViews.getNodeValue {World Object Iterable : Type}
    (views : RedfishViews World Object Iterable) (object : Object) (name : Text) :
    StateM World (Option Text) := do
  let variant <- views.get object name {}
  return variant.stringValue

/-- `QueryTimeoutManager`.  Durations and times are counted in one unit. -/
structure QueryTimeoutManager where
  timeout : Int
  inProgress : Bool
  timeoutTime : Int
deriving DecidableEq

namespace QueryTimeoutManager

/-- `StartTiming`, where the wait for a session in progress runs into the timeout. -/
def startTiming (manager : QueryTimeoutManager) (now : Int) : StatusOr QueryTimeoutManager :=
  if manager.inProgress then
    .error (.deadlineExceeded (text "Query Timeout already exceeded."))
  else
    .ok { manager with inProgress := true, timeoutTime := now + manager.timeout }

def checkTimeout (manager : QueryTimeoutManager) (now : Int) : Status :=
  if !manager.inProgress then
    .failedPrecondition (text "No timing session started with StartTime().")
  else if manager.timeoutTime <= now then
    .deadlineExceeded (text "Query Timeout exceeded.")
  else .okStatus

def endTiming (manager : QueryTimeoutManager) (now : Int) : Status × QueryTimeoutManager :=
  (manager.checkTimeout now, { manager with inProgress := false })

end QueryTimeoutManager

end Ecclesia
