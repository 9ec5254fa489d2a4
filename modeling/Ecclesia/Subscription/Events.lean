import Ecclesia.Redfish.Interface
import Mathlib.Data.List.Nodup

namespace Ecclesia.Subscription

open Absl

/-!
# Trigger ids and event contexts

A subscription request names every configuration by a trigger id.  The
service sends the id back as the context of an event, and the client recovers
the query id and the RedPath from it.  The definitions follow
`redpath_subscription.cc`.
-/

/-- `RedPathSubscription::Configuration` -/
structure Configuration where
  queryId : Text
  redpath : Text
  uris : List Text
  predicate : Text
deriving DecidableEq

/-- One element of the `Triggers` array: an object with the members
`OriginResources`, `Id` and `Predicate`. -/
structure Trigger where
  originResources : List Text
  id : Text
  predicate : Text
deriving DecidableEq

def triggerIdOf (config : Configuration) : Text :=
  config.queryId ++ '-' :: config.redpath

/-- The loop of `CreateTriggers`.  The map counts how often an id was used. -/
def createTriggersFrom (occurrences : Text -> Nat) :
    List Configuration -> StatusOr (List Trigger)
  | [] => .ok []
  | config :: rest =>
    if config.uris.isEmpty then .error (.invalidArgument (text "No uris provided"))
    else if config.queryId.isEmpty then
      .error (.invalidArgument (text "No query id provided"))
    else if config.redpath.isEmpty then
      .error (.invalidArgument (text "No redpath provided"))
    else
      let triggerId := triggerIdOf config
      let suffix := strCatNat (occurrences triggerId)
      let trigger : Trigger := ⟨config.uris, triggerId ++ '-' :: suffix, config.predicate⟩
      match createTriggersFrom
          (Function.update occurrences triggerId (occurrences triggerId + 1)) rest with
      | .error status => .error status
      | .ok triggers => .ok (trigger :: triggers)

def createTriggers (configurations : List Configuration) : StatusOr (List Trigger) :=
  createTriggersFrom (fun _ => 0) configurations

/-- `RedPathSubscription::EventContext` -/
structure EventContext where
  queryId : Text
  redpath : Text
  eventId : Text
  eventTimestamp : Text
deriving DecidableEq

/-- The accessors of the payload of an event. -/
structure EventViews (Object Iterable : Type) where
  get : Object -> Text -> RedfishVariant Object Iterable
  size : Iterable -> Nat
  index : Iterable -> Nat -> RedfishVariant Object Iterable

variable {Object Iterable : Type} (views : EventViews Object Iterable)

/-- `GetNodeValue<std::string>` -/
def EventViews.getNodeValue (object : Object) (name : Text) : Option Text :=
  (views.get object name).stringValue

/-- One invocation of the event callback. -/
structure Invocation (Object Iterable : Type) where
  originOfCondition : RedfishVariant Object Iterable
  context : EventContext

/-- How one turn of the loop over the events ends. -/
inductive Turn (Object Iterable : Type) where
  | invoke (invocation : Invocation Object Iterable)
  | next
  | leave

/-- One turn of the loop. An element that is no object, or without an origin, is passed over. -/
def handleSingleEvent (singleEvent : RedfishVariant Object Iterable) : Turn Object Iterable :=
  match singleEvent.object with
  | none => .next
  | some object =>
    match views.getNodeValue object (text "Context") with
    | none => .leave
    | some context =>
      match strSplit '-' context with
      | [queryId, redpath, _] =>
        match views.getNodeValue object (text "EventId") with
        | none => .leave
        | some eventId =>
          match views.getNodeValue object (text "EventTimestamp") with
          | none => .leave
          | some timestamp =>
            let origin := views.get object (text "OriginOfCondition")
            if origin.status.isOk then
              .invoke ⟨origin, ⟨queryId, redpath, eventId, timestamp⟩⟩
            else .next
      | _ => .leave

/-- The loop over the events, as the invocations of the callback in order. -/
def handleEvents :
    List (RedfishVariant Object Iterable) -> List (Invocation Object Iterable)
  | [] => []
  | singleEvent :: rest =>
    match handleSingleEvent views singleEvent with
    | .invoke invocation => invocation :: handleEvents rest
    | .next => handleEvents rest
    | .leave => []

/-- The elements of the `Events` array, if the event has one. -/
def eventElements (event : RedfishVariant Object Iterable) :
    Option (List (RedfishVariant Object Iterable)) :=
  if event.status.isOk then
    match event.object with
    | none => none
    | some object =>
      match (views.get object (text "Events")).iterable with
      | none => none
      | some events => some ((List.range (views.size events)).map (views.index events))
  else none

def handleEvent (event : RedfishVariant Object Iterable) : List (Invocation Object Iterable) :=
  match eventElements views event with
  | none => []
  | some elements => handleEvents views elements

end Ecclesia.Subscription
