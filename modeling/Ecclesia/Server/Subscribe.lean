import Ecclesia.Server.EventStore
import Ecclesia.Server.SubscriptionStore

namespace Ecclesia.Server

open List Bool

/-!
# Creating a subscription

A request for a subscription names resources.  Each of them is subscribed at a backend,
which can refuse at once, or answer later.  The answers come one by one and in any
order, also while other resources are still being subscribed.  When all of them have
come in, the subscription is stored and the caller is told.  The definitions follow
`CreateSubscription` and `AsyncSubscribeResponse` in `subscription_impl.cc`, and
`Trigger::Create` in `subscription.cc`.
-/

variable {Time : Type}

/-! ## Requests -/

structure Trigger where
  id : Text
  originResources : HashSet Text
  predicate : Text
  mask : Bool

namespace Trigger

def isObject : Json -> Bool
  | .object _ => true
  | _ => false

/-- One entry of the origin resources of a trigger. -/
def addOriginResource (resources : HashSet Text) (originResource : Json) :
    StatusOr (HashSet Text) :=
  if !isObject originResource then
    .error (.invalidArgument (text "OriginResource entry is not an object"))
  else
    match originResource.find (text "@odata.id") with
    | none => .error (.invalidArgument (text "@odata.id not populated in OriginResource"))
    | some (.string uri) => .ok (resources.insert uri)
    | some _ => .error (.invalidArgument (text "@odata.id is not a string"))

/-- The predicate of a trigger, and whether there is none and its resources are only polled. -/
def predicateOf (triggerJson : Json) : StatusOr (Text × Bool) :=
  match triggerJson.find (text "Predicate") with
  | none => .ok ([], true)
  | some (.string predicate) => .ok (predicate, false)
  | some _ => .error (.invalidArgument (text "Predicate is not a string"))

def idOf (triggerJson : Json) : StatusOr Text :=
  match triggerJson.find (text "Id") with
  | none => .error (.invalidArgument (text "Trigger Id not populated"))
  | some (.string id) => .ok id
  | some _ => .error (.invalidArgument (text "Trigger Id is not a string"))

def originResourcesOf (triggerJson : Json) : StatusOr (HashSet Text) :=
  match triggerJson.find (text "OriginResources") with
  | none => .error (.invalidArgument (text "OriginResources not populated"))
  | some (.array entries) => entries.foldlM addOriginResource ⟨[], List.nodup_nil⟩
  | some _ => .error (.invalidArgument (text "OriginResources is not an array"))

/-- `Trigger::Create` -/
def create (triggerJson : Json) : StatusOr Trigger :=
  match triggerJson with
  | .discarded => .error (.invalidArgument (text "Trigger json is discarded"))
  | _ => do
      let id <- idOf triggerJson
      let originResources <- originResourcesOf triggerJson
      let (predicate, mask) <- predicateOf triggerJson
      return ⟨id, originResources, predicate, mask⟩

end Trigger

def propertyNotPopulatedError (property : Text) : Text := property ++ text " not populated"

/-- A member that has to be populated. -/
def findPopulated (value : Json) (property : Text) : StatusOr Json :=
  match value.find property with
  | none => .error (.invalidArgument (propertyNotPopulatedError property))
  | some found => .ok found

/-- One trigger of a request. -/
def parseTrigger (trigger : Json) : StatusOr Trigger :=
  if trigger.isNull then .error (.invalidArgument (text "Trigger not populated"))
  else Trigger.create trigger

/-- The first part of `CreateSubscription`: the OEM object of a request, and its triggers. -/
def parseRequest (request : Json) : StatusOr (Json × List Trigger) := do
  let oem <- findPopulated request (text "Oem")
  let google <- findPopulated oem (text "Google")
  let triggers <- findPopulated google (text "Triggers")
  if triggers.isEmpty then
    .error (.invalidArgument (propertyNotPopulatedError (text "Triggers")))
  else do
    let parsed <- triggers.items.mapM parseTrigger
    return (google, parsed)

/-- The resources to subscribe: those of all triggers that are not masked. -/
def uniqueResourcesToSubscribe (triggers : List Trigger) : HashSet Text :=
  triggers.foldl (fun resources trigger =>
      if trigger.mask then resources
      else trigger.originResources.elements.foldl HashSet.insert resources) ⟨[], List.nodup_nil⟩

/-- `get<size_t>()`, which throws at every value that is neither a number nor a boolean. -/
def getSizeT : Json -> Evaluation Nat
  | .integer value => .ok (value % 2 ^ 64).toNat
  | .unsigned value => .ok value
  | .float value => .ok value.floor.toNat
  | .boolean value => .ok value.toNat
  | _ => .error (.exception (text "type_error.302"))

/-- The id of the last event that the subscriber has received, if it gives one. -/
def lastEventId (google : Json) : Evaluation (Option Nat) :=
  match google.find (text "LastEventId") with
  | none => .ok none
  | some value => (getSizeT value).map some

/-! ## Answers of the backend -/

/-- The resources of every event source. -/
abbrev OriginResources := HashMap EventSourceId (HashSet Text)

structure AsyncSubscribeResponse where
  status : Status
  responsesPending : HashSet Text
  eventSourceIdToOriginResources : OriginResources

namespace AsyncSubscribeResponse

def create (uniqueResources : HashSet Text) : AsyncSubscribeResponse :=
  ⟨.okStatus, uniqueResources, .empty⟩

def noteSources (uri : Text) (sources : OriginResources) (eventSourceIds : List EventSourceId) :
    OriginResources :=
  eventSourceIds.foldl
    (fun sources id => sources.assign id
      (((sources.lookup id).getD ⟨[], List.nodup_nil⟩).insert uri)) sources

/-- `ProcessResponse`, and whether it calls the callback. -/
def processResponse (response : AsyncSubscribeResponse) (uri : Text) (status : Status)
    (eventSourceIds : List EventSourceId) : AsyncSubscribeResponse × Bool :=
  if uri ∉ response.responsesPending.elements then
    ({ response with
      status := .internal (text "Received unexpected response for URI: " ++ uri) }, false)
  else
    let pending := response.responsesPending.erase uri
    if !response.status.isOk then ({ response with responsesPending := pending }, false)
    else
      let processed : AsyncSubscribeResponse :=
        ⟨if status.isOk then response.status else status, pending,
          noteSources uri response.eventSourceIdToOriginResources eventSourceIds⟩
      (processed, pending.elements.isEmpty || !processed.status.isOk)

end AsyncSubscribeResponse

/-! ## The creation of a subscription -/

section

/-- What the service meets while it creates a subscription: the answers of the backend, the new id,
the place of the new context, and the events that were sent. -/
structure CreationEnvironment (Time : Type) where
  subscribe : Text -> Status
  reply : Text -> Status × List EventSourceId
  subscriptionId : Nat
  address : Address
  eventStore : EventStore Time

/-- The resources that the loop has not come to, the requests in flight, and what was done. -/
structure CreationState where
  remaining : List Text
  outstanding : List Text
  response : AsyncSubscribeResponse
  store : SubscriptionStore
  added : List OwnedContext
  dispatched : List Json
  answers : List (StatusOr Nat)

variable (google : Json) (environment : CreationEnvironment Time)

def newContext (sources : OriginResources) : OwnedContext where
  context := ⟨environment.subscriptionId, sources.entries⟩
  distinct := sources.distinct

/-- `on_async_subscribe_complete`.  An exception leaves it before the caller is told. -/
def onAsyncSubscribeComplete (state : CreationState) : CreationState :=
  if !state.response.status.isOk then
    { state with answers := state.answers ++ [.error state.response.status] }
  else
    match lastEventId google with
    | .error _ => state
    | .ok since =>
      let missed := (since.map fun id => environment.eventStore.getEventsSince (some id)).getD []
      let owned := newContext environment state.response.eventSourceIdToOriginResources
      let outcome := state.store.addNewSubscription (some (environment.address, owned))
      if outcome.1.isOk then
        { state with
          store := outcome.2
          added := state.added ++ [owned]
          dispatched := state.dispatched ++ missed
          answers := state.answers ++ [.ok environment.subscriptionId] }
      else
        { state with
          store := outcome.2
          dispatched := state.dispatched ++ missed
          answers := state.answers ++ [.error outcome.1] }

/-- The answer of the backend for a resource arrives. -/
def deliver (state : CreationState) (resource : Text) : CreationState :=
  let processed := state.response.processResponse resource (environment.reply resource).1
    (environment.reply resource).2
  let next := { state with
    outstanding := state.outstanding.erase resource
    response := processed.1 }
  if processed.2 then onAsyncSubscribeComplete google environment next else next

/-- The loop takes the next resource, an answer arrives, or others change the store. -/
inductive CreationStep : CreationState -> CreationState -> Prop where
  | accepted {state : CreationState} {resource : Text} {rest : List Text}
      (next : state.remaining = resource :: rest)
      (taken : (environment.subscribe resource).isOk = true) :
      CreationStep state
        { state with remaining := rest, outstanding := resource :: state.outstanding }
  | refused {state : CreationState} {resource : Text} {rest : List Text}
      (next : state.remaining = resource :: rest)
      (failed : (environment.subscribe resource).isOk = false) :
      CreationStep state
        { state with
          remaining := []
          answers := state.answers ++ [.error (environment.subscribe resource)] }
  | delivered {state : CreationState} {resource : Text} (waiting : resource ∈ state.outstanding) :
      CreationStep state (deliver google environment state resource)
  | others {state : CreationState} (store : SubscriptionStore) :
      CreationStep state { state with store := store }

def CreationState.start (resources : HashSet Text) (store : SubscriptionStore) : CreationState :=
  ⟨resources.elements, [], .create resources, store, [], [], []⟩

/-- The loop has ended and every request that was taken has been answered. -/
def CreationState.Finished (state : CreationState) : Prop :=
  state.remaining = [] ∧ state.outstanding = []

/-! ## What is promised -/

/-- The caller is told once, of a success only if every resource was subscribed. -/
structure AnsweredOnce (resources : HashSet Text) (state : CreationState) : Prop where
  once : state.answers.length = 1
  subscribed : ∀ id, .ok id ∈ state.answers -> ∀ resource ∈ resources.elements,
    (environment.subscribe resource).isOk = true ∧
      (environment.reply resource).1.isOk = true
  stored : state.added ≠ [] -> ∃ id, state.answers = [.ok id]

/-- There is something to subscribe; if a request is refused, the answers before it are good; and if
all is well, the id of the last event can be read. -/
structure Answerable (resources : HashSet Text) : Prop where
  nonempty : resources.elements ≠ []
  refusedAlone : ∀ before resource after,
    resources.elements = before ++ resource :: after ->
    (∀ earlier ∈ before, (environment.subscribe earlier).isOk = true) ->
    (environment.subscribe resource).isOk = false ->
    ∀ earlier ∈ before, (environment.reply earlier).1.isOk = true
  readable : (∀ resource ∈ resources.elements,
      (environment.subscribe resource).isOk = true ∧ (environment.reply resource).1.isOk = true) ->
    (lastEventId google).isOk = true

end

/-! ## The course of a creation -/

section

variable (google : Json) (environment : CreationEnvironment Time) (resources : HashSet Text)

/-- Every resource has been answered for, with success, and the caller can be told. -/
def Completed (response : AsyncSubscribeResponse) : Prop :=
  resources.elements ≠ [] ∧ response.responsesPending.elements = [] ∧
    response.status.isOk = true ∧ (lastEventId google).isOk = true

instance (response : AsyncSubscribeResponse) :
    Decidable (Completed google resources response) :=
  inferInstanceAs (Decidable (_ ∧ _))

/-- What holds in the course of a creation, given the requests that were taken and whether
one was refused. -/
structure Progress (taken : List Text) (refused : Bool) (state : CreationState) : Prop where
  accepted : ∀ resource ∈ taken, (environment.subscribe resource).isOk = true
  running : refused = false -> resources.elements = taken ++ state.remaining
  stopped : refused = true -> state.remaining = [] ∧ ∃ resource after,
    resources.elements = taken ++ resource :: after ∧ (environment.subscribe resource).isOk = false
  inside : ∀ resource ∈ state.outstanding, resource ∈ taken
  once : state.outstanding.Nodup
  pending : ∀ resource, resource ∈ state.response.responsesPending.elements ↔
    resource ∈ resources.elements ∧ (resource ∈ taken -> resource ∈ state.outstanding)
  status : state.response.status.isOk = true ↔ ∀ resource ∈ taken,
    resource ∉ state.outstanding -> (environment.reply resource).1.isOk = true
  count : state.answers.length = (if refused then 1 else 0) +
    (if state.response.status.isOk then 0 else 1) +
    (if Completed google resources state.response then 1 else 0)
  successes : ∀ id, .ok id ∈ state.answers -> Completed google resources state.response
  additions : state.added ≠ [] -> ∃ id, .ok id ∈ state.answers

variable {google environment resources}

variable {taken : List Text} {refused : Bool} {state : CreationState}

lemma Progress.taken_subset (progress : Progress google environment resources taken refused state) :
    ∀ resource ∈ taken, resource ∈ resources.elements := by
  intro resource member
  cases refused with
  | false =>
    rw [progress.running rfl]
    exact mem_append_left _ member
  | true =>
    rcases (progress.stopped rfl).2 with ⟨next, after, split, -⟩
    rw [split]
    exact mem_append_left _ member

lemma progress_start (store : SubscriptionStore) :
    Progress google environment resources [] false (.start resources store) where
  accepted _ member := nomatch member
  running _ := rfl
  stopped isRefused := nomatch isRefused
  inside _ member := nomatch member
  once := nodup_nil
  pending resource := by
    change resource ∈ resources.elements ↔ _
    simp
  status := by
    apply iff_of_true rfl
    exact forall_mem_nil _
  count := by
    have open_ : ¬ Completed google resources (.create resources) :=
      fun completed => completed.1 completed.2.1
    change 0 = 0 + 0 + if Completed google resources (.create resources) then 1 else 0
    rw [if_neg open_]
  successes id member := nomatch member
  additions notEmpty := absurd rfl notEmpty

section

variable {resource : Text} {rest : List Text}
  (progress : Progress google environment resources taken refused state)
  (next : state.remaining = resource :: rest)

include progress next

lemma Progress.accept (isTaken : (environment.subscribe resource).isOk = true) :
    Progress google environment resources (taken ++ [resource]) refused
      { state with remaining := rest, outstanding := resource :: state.outstanding } := by
  have notRefused : refused = false := by
    cases refused with
    | false => rfl
    | true =>
      rw [(progress.stopped rfl).1] at next
      cases next
  subst notRefused
  have split : resources.elements = taken ++ resource :: rest := by
    rw [progress.running rfl, next]
  have fresh : resource ∉ taken := by
    intro member
    have distinct := resources.distinct
    rw [split] at distinct
    exact disjoint_of_nodup_append distinct member (.head _)
  have sameDelivered : ∀ other, (other ∈ taken ++ [resource] ->
      other ∈ resource :: state.outstanding) ↔ (other ∈ taken -> other ∈ state.outstanding) := by
    intro other
    by_cases same : other = resource
    · subst same
      simp [fresh]
    · simp [same]
  refine ⟨?_, ?_, nofun, ?_, ?_, ?_, ?_, progress.count, progress.successes, progress.additions⟩
  · intro other member
    rcases mem_append.mp member with before | last
    · exact progress.accepted other before
    · rw [mem_singleton.mp last]
      exact isTaken
  · intro _
    rw [split, append_assoc]
    rfl
  · intro other member
    rcases mem_cons.mp member with rfl | before
    · exact mem_append_right _ (.head _)
    · exact mem_append_left _ (progress.inside other before)
  · exact nodup_cons.mpr ⟨fun member => fresh (progress.inside resource member), progress.once⟩
  · intro other
    rw [sameDelivered]
    exact progress.pending other
  · rw [progress.status]
    constructor
    · intro good other member delivered
      rcases mem_append.mp member with before | last
      · exact good other before fun waiting => delivered (.tail _ waiting)
      · exact absurd (mem_singleton.mp last ▸ (.head _)) delivered
    · intro good other member delivered
      apply good other (mem_append_left _ member)
      intro waiting
      rcases mem_cons.mp waiting with rfl | before
      · exact fresh member
      · exact delivered before

/-- A request is refused, and the loop ends. -/
lemma Progress.refuse (failed : (environment.subscribe resource).isOk = false) :
    Progress google environment resources taken true
      { state with
        remaining := []
        answers := state.answers ++ [.error (environment.subscribe resource)] } := by
  have notRefused : refused = false := by
    cases refused with
    | false => rfl
    | true =>
      rw [(progress.stopped rfl).1] at next
      cases next
  subst notRefused
  have counted := progress.count
  refine ⟨progress.accepted, nofun, ?_, progress.inside, progress.once, progress.pending,
    progress.status, ?_, ?_, ?_⟩
  · intro _
    exact ⟨rfl, resource, rest, by rw [progress.running rfl, next], failed⟩
  · simp only [length_append, length_singleton, counted, if_true,
      false_eq_true, if_false]
    omega
  · intro id member
    rcases mem_append.mp member with before | last
    · exact progress.successes id before
    · cases mem_singleton.mp last
  · intro notEmpty
    rcases progress.additions notEmpty with ⟨id, member⟩
    exact ⟨id, mem_append_left _ member⟩

end

/-- What an expected answer does. -/
lemma processResponse_pending {response : AsyncSubscribeResponse} {uri : Text}
    (isPending : uri ∈ response.responsesPending.elements) (status : Status)
    (eventSourceIds : List EventSourceId) :
    (response.processResponse uri status eventSourceIds).1.responsesPending =
        response.responsesPending.erase uri ∧
      (response.processResponse uri status eventSourceIds).1.status.isOk =
        (response.status.isOk && status.isOk) ∧
      (response.processResponse uri status eventSourceIds).2 =
        (response.status.isOk &&
          ((response.responsesPending.erase uri).elements.isEmpty || !status.isOk)) := by
  unfold AsyncSubscribeResponse.processResponse
  rw [if_neg (not_not_intro isPending)]
  cases earlier : response.status.isOk with
  | false => simp [earlier]
  | true =>
    cases good : status.isOk with
    | false => simp [good]
    | true => simp [earlier]

/-- What the callback does: it tells the caller once, unless the id of the last event cannot
be read. -/
lemma onAsyncSubscribeComplete_cases (state : CreationState) :
    (onAsyncSubscribeComplete google environment state = state ∧
      state.response.status.isOk = true ∧ (lastEventId google).isOk = false) ∨
    ∃ answer,
      (onAsyncSubscribeComplete google environment state).remaining = state.remaining ∧
      (onAsyncSubscribeComplete google environment state).outstanding = state.outstanding ∧
      (onAsyncSubscribeComplete google environment state).response = state.response ∧
      (onAsyncSubscribeComplete google environment state).answers = state.answers ++ [answer] ∧
      ((onAsyncSubscribeComplete google environment state).added = state.added ∨
        ∃ id, answer = .ok id) ∧
      (∀ id, answer = .ok id -> state.response.status.isOk = true) ∧
      (state.response.status.isOk = true -> (lastEventId google).isOk = true) := by
  unfold onAsyncSubscribeComplete
  cases good : state.response.status.isOk with
  | false => exact .inr ⟨_, rfl, rfl, rfl, rfl, .inl rfl, nofun, nofun⟩
  | true =>
    rw [if_neg (by decide)]
    cases lastEventId google with
    | error failure => exact .inl ⟨rfl, rfl, rfl⟩
    | ok since =>
      right
      dsimp only
      split_ifs
      · exact ⟨_, rfl, rfl, rfl, rfl, .inr ⟨_, rfl⟩, fun _ _ => rfl, fun _ => rfl⟩
      · exact ⟨_, rfl, rfl, rfl, rfl, .inl rfl, fun _ _ => rfl, fun _ => rfl⟩

/-- What becomes of the response when the answer for a resource arrives, and whether the
callback is called. -/
def answered (environment : CreationEnvironment Time) (state : CreationState) (resource : Text) :
    AsyncSubscribeResponse × Bool :=
  state.response.processResponse resource (environment.reply resource).1
    (environment.reply resource).2

section

variable {taken : List Text} {refused : Bool} {state : CreationState}
  (progress : Progress google environment resources taken refused state)
  {resource : Text} (waiting : resource ∈ state.outstanding)

include progress

lemma Progress.answered_inside : ∀ other ∈ state.outstanding.erase resource, other ∈ taken :=
  fun other member => progress.inside other (progress.once.mem_erase_iff.mp member).2

include waiting

lemma Progress.mem_resources : resource ∈ resources.elements :=
  progress.taken_subset resource (progress.inside resource waiting)

/-- An answer that is waited for is expected. -/
lemma Progress.isPending : resource ∈ state.response.responsesPending.elements :=
  (progress.pending resource).mpr ⟨progress.mem_resources waiting, fun _ => waiting⟩

lemma Progress.not_completed : ¬ Completed google resources state.response := by
  intro completed
  have isPending := progress.isPending waiting
  rw [completed.2.1] at isPending
  cases isPending

/-- While an answer is waited for, the caller has been told of failures only. -/
lemma Progress.count_waiting : state.answers.length =
    (if refused then 1 else 0) + (if state.response.status.isOk then 0 else 1) := by
  have counted := progress.count
  rw [if_neg (progress.not_completed waiting)] at counted
  exact counted

lemma Progress.answered_pending : ∀ other,
    other ∈ (answered environment state resource).1.responsesPending.elements ↔
      other ∈ resources.elements ∧ (other ∈ taken -> other ∈ state.outstanding.erase resource) := by
  intro other
  rw [answered, (processResponse_pending (progress.isPending waiting) _ _).1, HashSet.mem_erase,
    progress.pending, progress.once.mem_erase_iff]
  constructor
  · rintro ⟨differs, inside, ifTaken⟩
    exact ⟨inside, fun member => ⟨differs, ifTaken member⟩⟩
  · rintro ⟨inside, ifTaken⟩
    refine ⟨?_, inside, fun member => (ifTaken member).2⟩
    rintro rfl
    exact (ifTaken (progress.inside other waiting)).1 rfl

lemma Progress.answered_isOk : (answered environment state resource).1.status.isOk =
    (state.response.status.isOk && (environment.reply resource).1.isOk) :=
  (processResponse_pending (progress.isPending waiting) _ _).2.1

lemma Progress.answered_status :
    (answered environment state resource).1.status.isOk = true ↔
      ∀ other ∈ taken, other ∉ state.outstanding.erase resource ->
        (environment.reply other).1.isOk = true := by
  rw [progress.answered_isOk waiting, and_eq_true, progress.status]
  constructor
  · rintro ⟨before, now⟩ other member delivered
    by_cases same : other = resource
    · rw [same]
      exact now
    · apply before other member
      exact fun inside => delivered (progress.once.mem_erase_iff.mpr ⟨same, inside⟩)
  · intro good
    refine ⟨?_, ?_⟩
    · intro other member delivered
      apply good other member
      exact fun inside => delivered (progress.once.mem_erase_iff.mp inside).2
    · apply good resource (progress.inside resource waiting)
      exact fun inside => (progress.once.mem_erase_iff.mp inside).1 rfl

/-- The callback is called when nothing has failed yet, for the last answer or the first
failure. -/
lemma Progress.answered_calls : (answered environment state resource).2 =
    (state.response.status.isOk &&
      ((answered environment state resource).1.responsesPending.elements.isEmpty ||
        !(environment.reply resource).1.isOk)) := by
  rcases processResponse_pending (progress.isPending waiting) (environment.reply resource).1
    (environment.reply resource).2 with ⟨left, -, calls⟩
  rw [answered, left, calls]

lemma Progress.deliver_called (called : (answered environment state resource).2 = true) :
    Progress google environment resources taken refused
      (onAsyncSubscribeComplete google environment { state with
        outstanding := state.outstanding.erase resource
        response := (answered environment state resource).1 }) := by
  have notCompleted := progress.not_completed waiting
  have counted := progress.count_waiting waiting
  have isOk := progress.answered_isOk waiting
  rw [progress.answered_calls waiting, and_eq_true] at called
  rcases called with ⟨noFailure, lastOrFailed⟩
  rw [noFailure] at counted
  rw [noFailure, Bool.true_and] at isOk
  rcases onAsyncSubscribeComplete_cases { state with
      outstanding := state.outstanding.erase resource
      response := (answered environment state resource).1 } with
    ⟨same, ok, unreadable⟩ | ⟨answer, remains, waits, responds, answers, adds, onOk, readable⟩
  · rw [same]
    refine ⟨progress.accepted, progress.running, progress.stopped,
      progress.answered_inside, progress.once.erase resource,
      progress.answered_pending waiting, progress.answered_status waiting, ?_, ?_,
      progress.additions⟩
    · have open_ : ¬ Completed google resources (answered environment state resource).1 := by
        intro completed
        rw [completed.2.2.2] at unreadable
        cases unreadable
      rw [if_neg open_, if_pos ok]
      exact counted
    · intro id member
      exact absurd (progress.successes id member) notCompleted
  · have completedIff : Completed google resources (answered environment state resource).1 ↔
        (environment.reply resource).1.isOk = true := by
      constructor
      · intro completed
        rw [<- isOk]
        exact completed.2.2.1
      · intro good
        refine ⟨ne_nil_of_mem (progress.mem_resources waiting), ?_, isOk.trans good,
          readable (isOk.trans good)⟩
        rw [good] at lastOrFailed
        simpa using lastOrFailed
    refine ⟨progress.accepted, ?_, ?_, ?_, ?_, ?_, ?_, ?_, ?_, ?_⟩
    · rw [remains]
      exact progress.running
    · rw [remains]
      exact progress.stopped
    · rw [waits]
      exact progress.answered_inside
    · rw [waits]
      exact progress.once.erase resource
    · rw [responds, waits]
      exact progress.answered_pending waiting
    · rw [responds, waits]
      exact progress.answered_status waiting
    · rw [answers, responds, length_append, counted]
      simp only [completedIff, isOk]
      cases (environment.reply resource).1.isOk with
      | true => simp
      | false => simp
    · rw [answers, responds]
      intro id member
      rcases mem_append.mp member with before | last
      · exact absurd (progress.successes id before) notCompleted
      · have ok := onOk id (mem_singleton.mp last).symm
        exact completedIff.mpr (isOk.symm.trans ok)
    · rw [answers]
      intro notEmpty
      rcases adds with same | ⟨id, rfl⟩
      · rw [same] at notEmpty
        rcases progress.additions notEmpty with ⟨id, member⟩
        exact ⟨id, mem_append_left _ member⟩
      · exact ⟨id, mem_append_right _ (.head _)⟩

/-- The callback is not called. -/
lemma Progress.deliver_quiet (quiet : (answered environment state resource).2 = false) :
    Progress google environment resources taken refused { state with
      outstanding := state.outstanding.erase resource
      response := (answered environment state resource).1 } := by
  have isOk := progress.answered_isOk waiting
  rw [progress.answered_calls waiting] at quiet
  have open_ : ¬ Completed google resources (answered environment state resource).1 := by
    rintro ⟨-, none, good, -⟩
    rw [isOk, and_eq_true] at good
    rw [good.1, none] at quiet
    cases quiet
  refine ⟨progress.accepted, progress.running, progress.stopped,
    progress.answered_inside, progress.once.erase resource,
    progress.answered_pending waiting, progress.answered_status waiting, ?_, ?_,
    progress.additions⟩
  · rw [if_neg open_, progress.count_waiting waiting, isOk]
    cases earlier : state.response.status.isOk with
    | false => rfl
    | true =>
      rw [earlier, Bool.true_and, or_eq_false_iff] at quiet
      have good : (environment.reply resource).1.isOk = true := by simpa using quiet.2
      rw [good]
      rfl
  · intro id member
    exact absurd (progress.successes id member) (progress.not_completed waiting)

/-- An answer arrives. -/
lemma Progress.deliver : Progress google environment resources taken refused
    (deliver google environment state resource) := by
  change Progress google environment resources taken refused
    (if (answered environment state resource).2 then _ else _)
  split_ifs with called
  · exact progress.deliver_called waiting called
  · exact progress.deliver_quiet waiting (not_eq_true _ ▸ called)

end

lemma Progress.step {taken : List Text} {refused : Bool} {state next : CreationState}
    (progress : Progress google environment resources taken refused state)
    (step : CreationStep google environment state next) :
    ∃ takenAfter refusedAfter,
      Progress google environment resources takenAfter refusedAfter next := by
  cases step with
  | accepted next isTaken => exact ⟨_, _, progress.accept next isTaken⟩
  | refused next failed => exact ⟨_, _, progress.refuse next failed⟩
  | delivered waiting => exact ⟨_, _, progress.deliver waiting⟩
  | others store =>
    exact ⟨taken, refused, progress.accepted, progress.running, progress.stopped,
      progress.inside, progress.once, progress.pending, progress.status, progress.count,
      progress.successes, progress.additions⟩

lemma progress_run {store : SubscriptionStore}
    (run : Relation.ReflTransGen (CreationStep google environment) (.start resources store) state) :
    ∃ taken refused, Progress google environment resources taken refused state := by
  induction run with
  | refl => exact ⟨[], false, progress_start store⟩
  | tail run step ih =>
    rcases ih with ⟨taken, refused, progress⟩
    exact progress.step step

end

/-! ## Whole creations -/

/-- A call of `CreateSubscription` until all answers have arrived, over the resources in the order
of the hash set. -/
structure Creation (request : Json) (environment : CreationEnvironment Time) (google : Json)
    (resources : HashSet Text) (final : CreationState) : Prop where
  parsed : ∃ triggers, parseRequest request = .ok (google, triggers) ∧
    resources.elements.Perm (uniqueResourcesToSubscribe triggers).elements
  run : ∃ store, Relation.ReflTransGen (CreationStep google environment)
    (.start resources store) final
  finished : final.Finished

lemma eq_singleton_of_mem {Item : Type} {items : List Item} {item : Item}
    (single : items.length = 1) (member : item ∈ items) : items = [item] := by
  rcases length_eq_one_iff.mp single with ⟨only, rfl⟩
  rw [mem_singleton.mp member]

/-- Requests before the first one that is refused are among those that were taken. -/
lemma before_subset_taken {accepts : Text -> Bool} {taken before after later : List Text}
    {stop resource : Text} (same : taken ++ stop :: after = before ++ resource :: later)
    (beforeGood : ∀ earlier ∈ before, accepts earlier = true)
    (stops : accepts stop = false) : ∀ earlier ∈ before, earlier ∈ taken := by
  intro earlier member
  rcases append_eq_append_iff.mp same with ⟨between, isBefore, rest⟩ | ⟨between, isTaken, -⟩
  · cases between with
    | nil => simpa [isBefore] using member
    | cons first others =>
      cases rest
      have good := beforeGood stop (by rw [isBefore]; simp)
      rw [stops] at good
      cases good
  · rw [isTaken]
    exact mem_append_left _ member

section

variable {google : Json} {environment : CreationEnvironment Time} {resources : HashSet Text}
  {taken : List Text} {final : CreationState}

/-- When all answers have arrived, the status is good just if all of them are. -/
lemma Progress.finished_status {refused : Bool}
    (progress : Progress google environment resources taken refused final)
    (finished : final.Finished) :
    final.response.status.isOk = true ↔
      ∀ resource ∈ taken, (environment.reply resource).1.isOk = true := by
  rw [progress.status, finished.2]
  simp

lemma Progress.answersOnce_iff (progress : Progress google environment resources taken false final)
    (finished : final.Finished) :
    AnsweredOnce environment resources final ↔ Answerable google environment resources := by
  have goodIff := progress.finished_status finished
  have counted := progress.count
  rw [if_neg Bool.false_ne_true] at counted
  have all : resources.elements = taken := by
    rw [progress.running rfl, finished.1, append_nil]
  have none : final.response.responsesPending.elements = [] := by
    apply eq_nil_iff_forall_not_mem.mpr
    intro resource isPending
    rcases (progress.pending resource).mp isPending with ⟨inside, waits⟩
    have waiting := waits (all ▸ inside)
    rw [finished.2] at waiting
    cases waiting
  constructor
  · intro once
    refine ⟨?_, ?_, ?_⟩
    · intro empty
      have good : final.response.status.isOk = true := by
        apply goodIff.mpr
        rw [<- all, empty]
        exact forall_mem_nil _
      rw [if_pos good, if_neg fun completed => completed.1 empty, once.once] at counted
      cases counted
    · intro before resource after split beforeGood failed
      have good := progress.accepted resource (by rw [<- all, split]; simp)
      rw [failed] at good
      cases good
    · intro subscribed
      have good : final.response.status.isOk = true :=
        goodIff.mpr fun resource member => (subscribed resource (all ▸ member)).2
      by_contra unreadable
      rw [if_pos good, if_neg fun completed => unreadable completed.2.2.2, once.once] at counted
      cases counted
  · intro answerable
    have once : final.answers.length = 1 := by
      rw [counted]
      by_cases good : final.response.status.isOk = true
      · have subscribed : ∀ resource ∈ resources.elements,
            (environment.subscribe resource).isOk = true ∧
              (environment.reply resource).1.isOk = true := by
          intro resource member
          rw [all] at member
          exact ⟨progress.accepted resource member, goodIff.mp good resource member⟩
        rw [if_pos good, if_pos ⟨answerable.nonempty, none, good, answerable.readable subscribed⟩]
      · rw [if_neg good, if_neg fun completed => good completed.2.2.1]
    refine ⟨once, ?_, ?_⟩
    · intro id member resource inside
      have completed := progress.successes id member
      rw [all] at inside
      exact ⟨progress.accepted resource inside, goodIff.mp completed.2.2.1 resource inside⟩
    · intro notEmpty
      rcases progress.additions notEmpty with ⟨id, member⟩
      exact ⟨id, eq_singleton_of_mem once member⟩

lemma Progress.answersOnce_iff_of_refused
    (progress : Progress google environment resources taken true final)
    (finished : final.Finished) :
    AnsweredOnce environment resources final ↔ Answerable google environment resources := by
  have goodIff := progress.finished_status finished
  have counted := progress.count
  rcases (progress.stopped rfl).2 with ⟨stop, after, split, stops⟩
  have open_ : ¬ Completed google resources final.response := by
    intro completed
    have isPending : stop ∈ final.response.responsesPending.elements := by
      apply (progress.pending stop).mpr
      refine ⟨by rw [split]; simp, ?_⟩
      intro inTaken
      have good := progress.accepted stop inTaken
      rw [stops] at good
      cases good
    rw [completed.2.1] at isPending
    cases isPending
  rw [if_neg open_] at counted
  constructor
  · intro once
    have good : final.response.status.isOk = true := by
      by_contra failed
      rw [if_neg failed, once.once] at counted
      cases counted
    refine ⟨?_, ?_, ?_⟩
    · rw [split]
      simp
    · intro before resource later otherSplit beforeGood failed earlier member
      apply goodIff.mp good earlier
      exact before_subset_taken (split.symm.trans otherSplit) beforeGood stops earlier member
    · intro subscribed
      have good := (subscribed stop (by rw [split]; simp)).1
      rw [stops] at good
      cases good
  · intro answerable
    have good : final.response.status.isOk = true :=
      goodIff.mpr (answerable.refusedAlone taken stop after split progress.accepted stops)
    rw [if_pos good] at counted
    refine ⟨counted, ?_, ?_⟩
    · exact fun id member => absurd (progress.successes id member) open_
    · intro notEmpty
      rcases progress.additions notEmpty with ⟨id, member⟩
      exact absurd (progress.successes id member) open_

end

def requestFor (trigger : Json) : Json :=
  .object [(text "Oem", .object [(text "Google", .object [(text "Triggers", .array [trigger])])])]

def googleFor (trigger : Json) : Json := .object [(text "Triggers", .array [trigger])]

/-- A trigger for two resources. -/
def pairTrigger (others : List (Text × Json)) : Json :=
  .object ((text "Id", .string (text "1")) ::
    (text "OriginResources", .array [.object [(text "@odata.id", .string (text "/a"))],
      .object [(text "@odata.id", .string (text "/b"))]]) :: others)

/-- A trigger with a predicate is not masked. -/
def activeTrigger : Json := pairTrigger [(text "Predicate", .string (text "*"))]

/-- A trigger without a predicate is masked. -/
def maskedTrigger : Json := pairTrigger []

def pairResources : HashSet Text := ⟨[text "/a", text "/b"], by decide⟩

/-- A backend that answers every request with one event source. -/
def willingEnvironment : CreationEnvironment Int :=
  ⟨fun _ => .okStatus, fun uri => (.okStatus, [⟨uri, .dbusObjects⟩]), 5, 1, .create 1⟩

/-- A backend that refuses the second resource and then fails for the first. -/
def failingEnvironment : CreationEnvironment Int :=
  { willingEnvironment with
    subscribe := fun uri => if uri = text "/b" then .internal (text "refused") else .okStatus
    reply := fun _ => (.internal (text "failed"), []) }

lemma parse_activeTrigger : ∃ triggers,
    parseRequest (requestFor activeTrigger) = .ok (googleFor activeTrigger, triggers) ∧
      pairResources.elements.Perm (uniqueResourcesToSubscribe triggers).elements :=
  ⟨_, rfl, .refl _⟩

end Ecclesia.Server
