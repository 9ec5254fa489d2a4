import Ecclesia.Library.Assoc
import Ecclesia.Transport.Coalescing

namespace Ecclesia.Transport

open List

/-!
# The time-based cache

The cache has a node for every path of a GET and for every path and payload of a POST.  A
node is made by the first call that needs it and is kept.  With deep caching, the objects
inside a fresh response get nodes of their own.  The definitions follow `cache.cc`, for one
thread: such a thread never finds an update in progress.
-/

def jsonSize : Json -> Nat
  | .null => 0
  | .array elements => elements.length
  | .object members => members.length
  | _ => 1

def isContainer : Json -> Bool
  | .array _ | .object _ => true
  | _ => false

lemma sum_map_sizeOf_le (values : List Json) : (values.map sizeOf).sum <= sizeOf values := by
  induction values with
  | nil => simp
  | cons value rest ih =>
    rw [map_cons, sum_cons, List.cons.sizeOf_spec]
    omega

lemma sum_map_sizeOf_members_le (members : List (Text × Json)) :
    ((members.map Prod.snd).map sizeOf).sum <= sizeOf members := by
  induction members with
  | nil => simp
  | cons member rest ih =>
    rcases member with ⟨name, value⟩
    simp only [map_cons, sum_cons, List.cons.sizeOf_spec, Prod.mk.sizeOf_spec]
    omega

lemma sum_filter_le (values : List Json) :
    ((values.filter isContainer).map sizeOf).sum <= (values.map sizeOf).sum := by
  induction values with
  | nil => simp
  | cons value rest ih =>
    rw [filter_cons, map_cons, sum_cons]
    split
    · rw [map_cons, sum_cons]
      omega
    · omega

lemma sizeOf_pos (value : Json) : 0 < sizeOf value := by
  cases value <;> simp [Nat.add_pos_left]

lemma sum_containers_lt (value : Json) :
    ((value.items.filter isContainer).map sizeOf).sum < sizeOf value := by
  have filtered := sum_filter_le value.items
  cases value with
  | array elements =>
    have inside := sum_map_sizeOf_le elements
    simp only [Json.items, Json.array.sizeOf_spec] at filtered ⊢
    omega
  | object members =>
    have inside := sum_map_sizeOf_members_le members
    simp only [Json.items, Json.object.sizeOf_spec] at filtered ⊢
    omega
  | null => exact sizeOf_pos _
  | boolean value => exact sizeOf_pos _
  | integer value => exact sizeOf_pos _
  | unsigned value => exact sizeOf_pos _
  | float value => exact sizeOf_pos _
  | string value => exact sizeOf_pos _
  | discarded => exact sizeOf_pos _

def stripFragment (path : Text) : Text := path.takeWhile fun c => c != '#'

def isPathBlocklisted (path : Text) : Bool := Absl.strContains path (text "/LogServices/")

/-- What a response was requested for. -/
inductive Request where
  | get (uri : Text)
  | post (path payload : Text)
deriving DecidableEq

/-- A request that was made, how it was answered and when the cache took the answer. -/
structure Fetch (Time : Type) where
  request : Request
  result : StatusOr Response
  time : Time

/-- An object inside a response that was given a node of its own, and when. -/
structure Filing (Time : Type) where
  uri : Text
  response : Response
  object : Json
  time : Time

/-- What the cache is given: a clock that is read with a loss of time, and a transport. -/
structure Upstream (World Time : Type) where
  time : World -> Time
  pass : World -> World
  get : Text -> World -> StatusOr Response × World
  post : Text -> Text -> World -> StatusOr Response × World

/-- The parameters of `TimeBasedCache`. -/
structure CacheConfig (Duration : Type) where
  getMaxAge : Duration
  deepCache : Bool
  enableBlocklist : Bool

/-- `TimeBasedCache`, with the world.  What was fetched and filed is kept for the proofs. -/
structure CacheState (World Time Duration : Type) where
  getCache : HashMap Text (CacheNode Time Duration Unit)
  postCache : HashMap (Text × Text) (CacheNode Time Duration Unit)
  world : World
  fetches : List (Fetch Time)
  filings : List (Filing Time)

structure OperationResult where
  result : StatusOr Response
  isFresh : Bool

variable {World Time Duration : Type} (upstream : Upstream World Time)
  (config : CacheConfig Duration)

def CacheState.start (world : World) : CacheState World Time Duration :=
  ⟨.empty, .empty, world, [], []⟩

/-- The object is given a node, unless it has no name of its own, or its name is blocked or
already has a node. -/
def cacheObject (result : Response) (current : Json) (state : CacheState World Time Duration) :
    CacheState World Time Duration × Option Failure :=
  if jsonSize current = 1 then (state, none)
  else
    match current.find (text "@odata.id") with
    | none => (state, none)
    | some value =>
      match value.getString with
      | .error failure => (state, some failure)
      | .ok name =>
        let id := stripFragment name
        if config.enableBlocklist && isPathBlocklisted id then (state, none)
        else
          match state.getCache.lookup id with
          | some _ => (state, none)
          | none =>
            ({ state with
              getCache := state.getCache.assign id
                (.filled id config.getMaxAge (upstream.time state.world)
                  { result with body := .json current })
              world := upstream.pass state.world
              filings := state.filings ++
                [⟨id, result, current, upstream.time state.world⟩] }, none)

/-- The loop over the items of an object, which tries to give it a node at every item. -/
def cacheItems (result : Response) (current : Json) :
    List Json -> CacheState World Time Duration -> CacheState World Time Duration × Option Failure
  | [], state => (state, none)
  | _ :: rest, state =>
    match cacheObject upstream config result current state with
    | (changed, some failure) => (changed, some failure)
    | (changed, none) => cacheItems result current rest changed

/-- The loop of `CacheNestedObjects` over its queue.  An exception leaves the nodes that were
made. -/
def cacheQueue (result : Response) (queue : List Json) (state : CacheState World Time Duration) :
    CacheState World Time Duration × Option Failure :=
  match queue with
  | [] => (state, none)
  | current :: rest =>
    match cacheItems upstream config result current current.items state with
    | (changed, some failure) => (changed, some failure)
    | (changed, none) => cacheQueue result (rest ++ current.items.filter isContainer) changed
termination_by (queue.map sizeOf).sum
decreasing_by
  have smaller := sum_containers_lt current
  rw [List.map_append, List.sum_append, List.map_cons, List.sum_cons]
  omega

def cacheNestedObjects (result : Response) (state : CacheState World Time Duration) :
    CacheState World Time Duration × Option Failure :=
  match result.body with
  | .bytes _ => (state, none)
  | .json value => cacheQueue upstream config result [value] state

def CacheNode.request (node : CacheNode Time Duration Unit) : Request :=
  match node.postPayload with
  | none => .get node.path
  | some payload => .post node.path payload

def fetch (world : World) : Request -> StatusOr Response × World
  | .get uri => upstream.get uri world
  | .post path payload => upstream.post path payload world

/-- What a read of a node returns and leaves. -/
structure ReadOutcome (World Time Duration : Type) where
  operation : OperationResult
  node : CacheNode Time Duration Unit
  world : World
  fetches : List (Fetch Time)

/-- `DoUpdateAndNotifyOthers`.  The clock is read only if the result can be used again. -/
def doUpdateAndNotifyOthers (node : CacheNode Time Duration Unit) (world : World) :
    ReadOutcome World Time Duration :=
  let fetched := fetch upstream world node.request
  let now := upstream.time fetched.2
  { operation := ⟨fetched.1, true⟩
    node := node.publish fetched.1 (node.updateTime fetched.1 now)
    world := if node.cacheable fetched.1 then upstream.pass fetched.2 else fetched.2
    fetches := [⟨node.request, fetched.1, now⟩] }

def uncachedRead (node : CacheNode Time Duration Unit) (world : World) :
    ReadOutcome World Time Duration :=
  doUpdateAndNotifyOthers upstream node world

def cachedRead [LinearOrder Time] [HAdd Time Duration Time] (node : CacheNode Time Duration Unit)
    (world : World) : ReadOutcome World Time Duration :=
  if node.recent (upstream.time world) then
    ⟨⟨node.result, false⟩, node, upstream.pass world, []⟩
  else doUpdateAndNotifyOthers upstream node (upstream.pass world)

def retrieveGetNode (path : Text) (state : CacheState World Time Duration) :
    CacheNode Time Duration Unit :=
  (state.getCache.lookup (stripFragment path)).getD
    (.fresh (stripFragment path) none config.getMaxAge)

def retrievePostNode (path payload : Text) (duration : Duration)
    (state : CacheState World Time Duration) : CacheNode Time Duration Unit :=
  (state.postCache.lookup (path, payload)).getD (.fresh path (some payload) duration)

def CacheState.readGet (state : CacheState World Time Duration) (path : Text)
    (outcome : ReadOutcome World Time Duration) : CacheState World Time Duration :=
  { state with
    getCache := state.getCache.assign (stripFragment path) outcome.node
    world := outcome.world
    fetches := state.fetches ++ outcome.fetches }

def CacheState.readPost (state : CacheState World Time Duration) (path payload : Text)
    (outcome : ReadOutcome World Time Duration) : CacheState World Time Duration :=
  { state with
    postCache := state.postCache.assign (path, payload) outcome.node
    world := outcome.world
    fetches := state.fetches ++ outcome.fetches }

/-- A call returns an answer, or an exception leaves it. -/
abbrev CallOutcome (World Time Duration : Type) :=
  Except Failure OperationResult × CacheState World Time Duration

def uncachedGetInternal (path : Text) (relevant : Bool) (state : CacheState World Time Duration) :
    CallOutcome World Time Duration :=
  if !relevant then
    let fetched := upstream.get path state.world
    (.ok ⟨fetched.1, true⟩, { state with
      world := fetched.2
      fetches := state.fetches ++ [⟨.get path, fetched.1, upstream.time fetched.2⟩] })
  else
    let outcome := uncachedRead upstream (retrieveGetNode config path state) state.world
    (.ok outcome.operation, state.readGet path outcome)

/-- The objects inside a fresh response are given nodes, if the cache is a deep one. -/
def cacheDeeply (operation : OperationResult) (state : CacheState World Time Duration) :
    CallOutcome World Time Duration :=
  match config.deepCache && operation.isFresh, operation.result with
  | true, .ok response =>
    match cacheNestedObjects upstream config response state with
    | (changed, some failure) => (.error failure, changed)
    | (changed, none) => (.ok operation, changed)
  | _, _ => (.ok operation, state)

def cachedGetInternal [LinearOrder Time] [HAdd Time Duration Time] (path : Text)
    (state : CacheState World Time Duration) : CallOutcome World Time Duration :=
  if config.enableBlocklist && isPathBlocklisted path then
    uncachedGetInternal upstream config path false state
  else
    let outcome := cachedRead upstream (retrieveGetNode config path state) state.world
    cacheDeeply upstream config outcome.operation (state.readGet path outcome)

def cachedPostInternal [LinearOrder Time] [HAdd Time Duration Time] (path payload : Text)
    (duration : Duration) (state : CacheState World Time Duration) :
    CallOutcome World Time Duration :=
  let outcome := cachedRead upstream (retrievePostNode path payload duration state) state.world
  (.ok outcome.operation, state.readPost path payload outcome)

/-- The calls of a user of the cache. -/
inductive Call (Duration : Type) where
  | cachedGet (path : Text)
  | uncachedGet (path : Text) (relevant : Bool)
  | cachedPost (path payload : Text) (duration : Duration)

def answer [LinearOrder Time] [HAdd Time Duration Time] (call : Call Duration)
    (state : CacheState World Time Duration) : CallOutcome World Time Duration :=
  match call with
  | .cachedGet path => cachedGetInternal upstream config path state
  | .uncachedGet path relevant => uncachedGetInternal upstream config path relevant state
  | .cachedPost path payload duration => cachedPostInternal upstream path payload duration state

end Ecclesia.Transport
