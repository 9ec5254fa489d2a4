import Ecclesia.Json.Value

namespace Ecclesia.Transport

/-!
# Nodes of the cache

A node of the cache keeps the last result of one request and the time at which it was
obtained.  Only one thread at a time renews the result.  Threads that want it renewed
meanwhile leave a notification in the node and wait for it.  The definitions follow
`TimeBasedCache::CacheNode` in `cache.h`.
-/

/-- The body of a response. -/
inductive Body where
  | json (value : Json)
  | bytes (content : Text)

/-- `RedfishTransport::Result` -/
structure Response where
  code : Int
  body : Body
  headers : List (Text × Text)

def Body.isJson : Body -> Bool
  | .json _ => true
  | .bytes _ => false

/-- `CacheNode`. A node that was never updated has the infinite past as its time, which is no time.
-/
structure CacheNode (Time Duration Waiter : Type) where
  path : Text
  postPayload : Option Text
  duration : Duration
  lastUpdateTime : Option Time
  result : StatusOr Response
  notifications : List Waiter
  operationInProgress : Bool

namespace CacheNode

variable {Time Duration Waiter : Type}

/-- The constructor without a result.  The result is that of an empty `absl::StatusOr`. -/
def fresh (path : Text) (postPayload : Option Text) (duration : Duration) :
    CacheNode Time Duration Waiter :=
  ⟨path, postPayload, duration, none, .error ⟨.unknown, []⟩, [], false⟩

/-- The constructor with the result of a GET that was obtained now. -/
def filled (path : Text) (duration : Duration) (now : Time) (result : Response) :
    CacheNode Time Duration Waiter :=
  ⟨path, none, duration, some now, .ok result, [], false⟩

/-- A node as one of the constructors leaves it. -/
inductive New : CacheNode Time Duration Waiter -> Prop where
  | fresh (path : Text) (postPayload : Option Text) (duration : Duration) :
      New (fresh path postPayload duration)
  | filled (path : Text) (duration : Duration) (now : Time) (result : Response) :
      New (filled path duration now result)

lemma New.quiet {node : CacheNode Time Duration Waiter} (new : New node) :
    node.operationInProgress = false ∧ node.notifications = [] := by
  cases new with
  | fresh path postPayload duration => exact ⟨rfl, rfl⟩
  | filled path duration now result => exact ⟨rfl, rfl⟩

/-- The result is recent enough to be used again. -/
def recent [LinearOrder Time] [HAdd Time Duration Time] (node : CacheNode Time Duration Waiter)
    (now : Time) : Bool :=
  match node.lastUpdateTime with
  | none => false
  | some time => decide (now < time + node.duration)

variable (node : CacheNode Time Duration Waiter)

/-- `RegisterNotificationIfUpdateInProgress`, and whether a notification was left. -/
def registerNotificationIfUpdateInProgress (waiter : Waiter)
    : Bool × CacheNode Time Duration Waiter :=
  if !node.operationInProgress then (false, { node with operationInProgress := true })
  else (true, { node with notifications := node.notifications ++ [waiter] })

/-- The result of a request can be used again: it is a success, and of a GET only if its
body is JSON. -/
def cacheable : StatusOr Response -> Bool
  | .error _ => false
  | .ok response => node.postPayload.isSome || response.body.isJson

def updateTime (result : StatusOr Response) (now : Time) :
    Option Time :=
  if node.cacheable result then some now else none

/-- The critical section at the end of `DoUpdateAndNotifyOthers`.  All notifications in the
node are given. -/
def publish (result : StatusOr Response) (updateTime : Option Time)
    : CacheNode Time Duration Waiter :=
  { node with
    result := result
    lastUpdateTime := updateTime
    notifications := []
    operationInProgress := false }

end CacheNode

end Ecclesia.Transport
