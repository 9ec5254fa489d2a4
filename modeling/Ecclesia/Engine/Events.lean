import Ecclesia.Planner.Run

namespace Ecclesia.Engine

open Planner

/-!
# Events in the query engine

The engine keeps the subscription context of every query it has subscribed
to.  An event names its query and the RedPath it was subscribed under; the
engine looks up the trie node of that RedPath and resumes the query there.  The
definitions follow `query_engine.cc`.
-/

/-- The part of `QueryEngine` that the handling of events reads. -/
structure QueryEngine (World Object Iterable : Type) where
  idToRedpathQueryPlans : List (Text × QueryPlanner World Object Iterable)
  idToSubscriptionContext : List (Text × SubscriptionContext)
  redfishInterface : Option (RedfishInterface World Object Iterable)

variable {World Object Iterable : Type} (engine : QueryEngine World Object Iterable)

/-- The options with which an event resumes its query. The variables are bound by reference, so the
move leaves them. -/
def resumeOptions (subscription : SubscriptionContext) (trieNode : RedPathTrieNode)
    (variant : RedfishVariant Object Iterable) : QueryResumeOptions World Object Iterable where
  trieNode := trieNode
  redfishVariant := variant
  queryVariables := subscription.queryVariables
  urlAnnotationEnabled := false
  redfishInterface := engine.redfishInterface

/-- What the callback sees of a resumed query: its result, unless it has a status. -/
def deliver (resumed : Except Text (RunState World Object Iterable)) :
    Except Text (Option QueryResult × World) :=
  resumed.map fun final =>
    (if final.result.status.isSome then none else some final.result, final.world)

/-- `QueryEngine::HandleRedfishEvent`: the result for the callback, if it is called, and the world.
-/
def handleRedfishEvent (variant : RedfishVariant Object Iterable)
    (event : Subscription.EventContext) (world : World) :
    Except Text (Option QueryResult × World) :=
  match engine.idToSubscriptionContext.lookup event.queryId with
  | none => .ok (none, world)
  | some subscription =>
    match subscription.redpathToTrieNode.lookup event.redpath with
    | none => .ok (none, world)
    | some trieNode =>
      match engine.idToRedpathQueryPlans.lookup event.queryId with
      | none => .error (text "out_of_range")
      | some queryPlan =>
        deliver (resume queryPlan (resumeOptions engine subscription trieNode variant) world)

/-- An event whose query and RedPath are known resumes the query at the trie node
that is kept for the RedPath. -/
lemma handleRedfishEvent_resumes {event : Subscription.EventContext}
    {subscription : SubscriptionContext} {trieNode : RedPathTrieNode}
    {queryPlan : QueryPlanner World Object Iterable}
    (subscribed : engine.idToSubscriptionContext.lookup event.queryId = some subscription)
    (kept : subscription.redpathToTrieNode.lookup event.redpath = some trieNode)
    (planned : engine.idToRedpathQueryPlans.lookup event.queryId = some queryPlan)
    (variant : RedfishVariant Object Iterable) (world : World) :
    handleRedfishEvent engine variant event world =
      deliver (resume queryPlan (resumeOptions engine subscription trieNode variant) world) := by
  unfold handleRedfishEvent
  simp only [subscribed, kept, planned]

end Ecclesia.Engine
