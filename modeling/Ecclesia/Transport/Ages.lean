import Ecclesia.Transport.TimeBasedCache

namespace Ecclesia.Transport

open List

/-!
# The age of cached answers

An answer that is not fresh was obtained for the same request, and not too long ago.  For a
GET the longest age is that of the cache.  For a POST it is the duration of the call that
has made the node, which later calls with shorter durations do not change.
-/

/-- The values inside a value. -/
inductive Within (whole : Json) : Json -> Prop where
  | whole : Within whole whole
  | item {outer value : Json} (within : Within whole outer) (member : value ∈ outer.items) :
      Within whole value

section

variable {World Time Duration : Type}

/-- A response was fetched at some time, or was filed as an object of this name inside such a one.
-/
inductive Obtained (fetches : List (Fetch Time)) (filings : List (Filing Time)) :
    Request -> Response -> Time -> Prop where
  | fetched {request : Request} {response : Response} {time : Time}
      (member : ⟨request, .ok response, time⟩ ∈ fetches) :
      Obtained fetches filings request response time
  | filed {filing : Filing Time} {request : Request} {whole : Json} {name : Text} {time : Time}
      (member : filing ∈ filings) (source : ⟨request, .ok filing.response, time⟩ ∈ fetches)
      (body : filing.response.body = .json whole) (within : Within whole filing.object)
      (named : filing.object.find (text "@odata.id") = some (.string name))
      (isUri : stripFragment name = filing.uri) :
      Obtained fetches filings (.get filing.uri)
        { filing.response with body := .json filing.object } filing.time

def Readable : Request -> Response -> Prop
  | .get _, response => response.body.isJson = true
  | .post _ _, _ => True

/-- An answer that is not fresh is a success that was obtained for this request, and not
longer ago than this. -/
def Timely [LinearOrder Time] [HAdd Time Duration Time] (state : CacheState World Time Duration)
    (request : Request) (lasts : Duration) (now : Time) (operation : OperationResult) : Prop :=
  operation.isFresh = false -> ∃ response time, operation.result = .ok response ∧
    Readable request response ∧ Obtained state.fetches state.filings request response time ∧
      now < time + lasts

def Call.request : Call Duration -> Request
  | .cachedGet path | .uncachedGet path _ => .get (stripFragment path)
  | .cachedPost path payload _ => .post path payload

/-- The age that the answer to a call may have. -/
def Call.lasts (config : CacheConfig Duration) : Call Duration -> Duration
  | .cachedGet _ | .uncachedGet _ _ => config.getMaxAge
  | .cachedPost _ _ duration => duration

/-- A POST is allowed an age at least as long as that of the node for it. -/
def Call.Covered [LinearOrder Time] [HAdd Time Duration Time]
    (state : CacheState World Time Duration) : Call Duration -> Prop
  | .cachedGet _ | .uncachedGet _ _ => True
  | .cachedPost path payload duration =>
    ∀ node, state.postCache.lookup (path, payload) = some node ->
      ∀ time : Time, time + node.duration <= time + duration

/-- The states of a cache between calls.  The world can change between them. -/
inductive Reachable [LinearOrder Time] [HAdd Time Duration Time] (upstream : Upstream World Time)
    (config : CacheConfig Duration) : CacheState World Time Duration -> Prop where
  | start (world : World) : Reachable upstream config (.start world)
  | called {state : CacheState World Time Duration} (reachable : Reachable upstream config state)
      (call : Call Duration) : Reachable upstream config (answer upstream config call state).2
  | waited {state : CacheState World Time Duration} (reachable : Reachable upstream config state)
      (world : World) : Reachable upstream config { state with world := world }

variable {fetches fetchesAfter : List (Fetch Time)} {filings filingsAfter : List (Filing Time)}
  {request : Request} {response : Response}

lemma Obtained.mono {time : Time} (obtained : Obtained fetches filings request response time)
    (fetchedMore : fetches ⊆ fetchesAfter) (filedMore : filings ⊆ filingsAfter) :
    Obtained fetchesAfter filingsAfter request response time := by
  cases obtained with
  | fetched member => exact .fetched (fetchedMore member)
  | filed member source body within named isUri =>
    exact .filed (filedMore member) (fetchedMore source) body within named isUri

/-- A node is for a request, and what it can answer was obtained for it. -/
structure NodeFor (fetches : List (Fetch Time)) (filings : List (Filing Time))
    (request : Request) (node : CacheNode Time Duration Unit) : Prop where
  asks : node.request = request
  holds : ∀ time, node.lastUpdateTime = some time -> ∃ response,
    node.result = .ok response ∧ Readable request response ∧
      Obtained fetches filings request response time

variable {node : CacheNode Time Duration Unit}

lemma NodeFor.mono (nodeFor : NodeFor fetches filings request node)
    (fetchedMore : fetches ⊆ fetchesAfter) (filedMore : filings ⊆ filingsAfter) :
    NodeFor fetchesAfter filingsAfter request node := by
  refine ⟨nodeFor.asks, ?_⟩
  intro time updated
  rcases nodeFor.holds time updated with ⟨response, isResult, readable, obtained⟩
  exact ⟨response, isResult, readable, obtained.mono fetchedMore filedMore⟩

lemma nodeFor_fresh {path : Text} {postPayload : Option Text} {duration : Duration}
    (asks : (.fresh path postPayload duration : CacheNode Time Duration Unit).request = request) :
    NodeFor fetches filings request (.fresh path postPayload duration) :=
  ⟨asks, fun _ updated => nomatch updated⟩

lemma readable_of_cacheable
    (cacheable : node.cacheable (.ok response) = true) : Readable node.request response := by
  unfold CacheNode.request
  unfold CacheNode.cacheable at cacheable
  cases payload : node.postPayload with
  | none =>
    rw [payload] at cacheable
    exact cacheable
  | some payload => trivial

section

variable (upstream : Upstream World Time) (world : World)
  (nodeFor : NodeFor fetches filings request node)

include nodeFor

lemma nodeFor_update :
    NodeFor (fetches ++ (doUpdateAndNotifyOthers upstream node world).fetches) filings request
      (doUpdateAndNotifyOthers upstream node world).node := by
  unfold doUpdateAndNotifyOthers CacheNode.publish
  refine ⟨nodeFor.asks, ?_⟩
  intro time updated
  simp only [CacheNode.updateTime] at updated ⊢
  cases result : (fetch upstream world node.request).1 with
  | error status =>
    rw [result] at updated
    cases updated
  | ok response =>
    rw [result] at updated
    split at updated
    · next cacheable =>
        cases updated
        refine ⟨response, rfl, ?_, .fetched ?_⟩
        · rw [<- nodeFor.asks]
          exact readable_of_cacheable cacheable
        · rw [<- nodeFor.asks]
          simp
    · cases updated

lemma nodeFor_cachedRead [LinearOrder Time] [HAdd Time Duration Time] :
    NodeFor (fetches ++ (cachedRead upstream node world).fetches) filings request
      (cachedRead upstream node world).node := by
  unfold cachedRead
  split
  · rw [append_nil]
    exact nodeFor
  · exact nodeFor_update upstream _ nodeFor

end

/-- Every node of the cache is for its key, and those of GETs last as long as the cache
allows. -/
structure Sound (config : CacheConfig Duration) (state : CacheState World Time Duration) :
    Prop where
  gets : ∀ key node, state.getCache.lookup key = some node ->
    node.duration = config.getMaxAge ∧ NodeFor state.fetches state.filings (.get key) node
  posts : ∀ path payload node, state.postCache.lookup (path, payload) = some node ->
    NodeFor state.fetches state.filings (.post path payload) node

variable {upstream : Upstream World Time} {config : CacheConfig Duration}

variable {state : CacheState World Time Duration}

lemma Sound.getNode (sound : Sound config state) (path : Text) :
    (retrieveGetNode config path state).duration = config.getMaxAge ∧
      NodeFor state.fetches state.filings (.get (stripFragment path))
        (retrieveGetNode config path state) := by
  unfold retrieveGetNode
  cases found : state.getCache.lookup (stripFragment path) with
  | none => exact ⟨rfl, nodeFor_fresh rfl⟩
  | some node => exact sound.gets _ node found

lemma Sound.postNode (sound : Sound config state) (path payload : Text) (duration : Duration) :
    NodeFor state.fetches state.filings (.post path payload)
      (retrievePostNode path payload duration state) := by
  unfold retrievePostNode
  cases found : state.postCache.lookup (path, payload) with
  | none => exact nodeFor_fresh rfl
  | some node => exact sound.posts path payload node found

variable {outcome : ReadOutcome World Time Duration}

lemma Sound.readGet (sound : Sound config state) {path : Text}
    (lasts : outcome.node.duration = config.getMaxAge)
    (nodeFor : NodeFor (state.fetches ++ outcome.fetches) state.filings
      (.get (stripFragment path)) outcome.node) : Sound config (state.readGet path outcome) := by
  have fetchedMore : state.fetches ⊆ state.fetches ++ outcome.fetches := subset_append_left _ _
  constructor
  · intro key node found
    rw [CacheState.readGet, HashMap.lookup_assign] at found
    split at found
    · next same =>
        cases found
        rw [eq_of_beq same]
        exact ⟨lasts, nodeFor⟩
    · rcases sound.gets key node found with ⟨lastsNode, nodeForKey⟩
      exact ⟨lastsNode, nodeForKey.mono fetchedMore (List.Subset.refl _)⟩
  · intro otherPath payload node found
    exact (sound.posts otherPath payload node found).mono fetchedMore (List.Subset.refl _)

lemma Sound.readPost (sound : Sound config state) {path payload : Text}
    (nodeFor : NodeFor (state.fetches ++ outcome.fetches) state.filings
      (.post path payload) outcome.node) : Sound config (state.readPost path payload outcome) := by
  have fetchedMore : state.fetches ⊆ state.fetches ++ outcome.fetches := subset_append_left _ _
  constructor
  · intro key node found
    rcases sound.gets key node found with ⟨lastsNode, nodeForKey⟩
    exact ⟨lastsNode, nodeForKey.mono fetchedMore (List.Subset.refl _)⟩
  · intro otherPath otherPayload node found
    rw [CacheState.readPost, HashMap.lookup_assign] at found
    split at found
    · next same =>
        cases found
        cases eq_of_beq same
        exact nodeFor
    · exact (sound.posts otherPath otherPayload node found).mono fetchedMore (List.Subset.refl _)

/-- A response has been fetched, with this body. -/
def Source (fetches : List (Fetch Time)) (response : Response) (whole : Json) : Prop :=
  response.body = .json whole ∧ ∃ request time, ⟨request, .ok response, time⟩ ∈ fetches

lemma eq_string_of_getString {value : Json} {name : Text} (isName : value.getString = .ok name) :
    value = .string name := by
  cases value with
  | string content =>
    cases isName
    rfl
  | _ => cases isName

lemma cacheObject_sound {whole current : Json} (source : Source state.fetches response whole)
    (within : Within whole current) (sound : Sound config state) :
    Sound config (cacheObject upstream config response current state).1 ∧
      (cacheObject upstream config response current state).1.fetches = state.fetches := by
  unfold cacheObject
  split
  · exact ⟨sound, rfl⟩
  cases found : current.find (text "@odata.id") with
  | none => exact ⟨sound, rfl⟩
  | some value =>
    cases isName : value.getString with
    | error failure =>
      simp only [isName]
      exact ⟨sound, trivial⟩
    | ok name =>
      simp only [isName]
      split
      · exact ⟨sound, rfl⟩
      cases present : state.getCache.lookup (stripFragment name) with
      | some node => exact ⟨sound, rfl⟩
      | none =>
        have filedMore : state.filings ⊆ state.filings ++
            [⟨stripFragment name, response, current, upstream.time state.world⟩] :=
          subset_append_left _ _
        refine ⟨⟨?_, ?_⟩, rfl⟩
        · intro key node isNode
          rw [HashMap.lookup_assign] at isNode
          split at isNode
          · next same =>
              cases isNode
              cases eq_of_beq same
              refine ⟨rfl, rfl, ?_⟩
              intro time updated
              cases updated
              rcases source with ⟨body, request, fetched, member⟩
              refine ⟨_, rfl, rfl, ?_⟩
              rw [eq_string_of_getString isName] at found
              exact .filed (mem_append_right _ (.head _)) member body within found rfl
          · rcases sound.gets key node isNode with ⟨lasts, nodeFor⟩
            exact ⟨lasts, nodeFor.mono (List.Subset.refl _) filedMore⟩
        · intro path payload node isNode
          exact (sound.posts path payload node isNode).mono (List.Subset.refl _) filedMore

lemma cacheItems_sound (upstream : Upstream World Time) {whole current : Json} (items : List Json)
    (source : Source state.fetches response whole) (within : Within whole current)
    (sound : Sound config state) :
    Sound config (cacheItems upstream config response current items state).1 ∧
      (cacheItems upstream config response current items state).1.fetches = state.fetches := by
  induction items generalizing state with
  | nil => exact ⟨sound, rfl⟩
  | cons item rest ih =>
    unfold cacheItems
    rcases cacheObject_sound source within sound with ⟨soundAfter, fetches⟩
    cases outcome : cacheObject upstream config response current state with
    | mk changed failure =>
      rw [outcome] at soundAfter fetches
      cases failure with
      | some failure => exact ⟨soundAfter, fetches⟩
      | none =>
        rcases ih (fetches.symm ▸ source) soundAfter with ⟨soundRest, fetchesRest⟩
        exact ⟨soundRest, fetchesRest.trans fetches⟩

lemma cacheQueue_sound {whole : Json} (queue : List Json) (state : CacheState World Time Duration)
    (source : Source state.fetches response whole)
    (within : ∀ value ∈ queue, Within whole value) (sound : Sound config state) :
    Sound config (cacheQueue upstream config response queue state).1 := by
  induction queue, state using cacheQueue.induct upstream config response with
  | case1 state =>
    unfold cacheQueue
    exact sound
  | case2 state current rest changed failure outcome =>
    have visited := cacheItems_sound upstream current.items source (within current (.head _)) sound
    rw [outcome] at visited
    unfold cacheQueue
    rw [outcome]
    exact visited.1
  | case3 state current rest changed outcome ih =>
    have isWithin := within current (.head _)
    have visited := cacheItems_sound upstream current.items source isWithin sound
    rw [outcome] at visited
    unfold cacheQueue
    rw [outcome]
    apply ih (visited.2.symm ▸ source) _ visited.1
    intro value member
    rcases mem_append.mp member with before | inside
    · exact within value (.tail _ before)
    · exact .item isWithin (mem_of_mem_filter inside)

lemma cacheDeeply_sound {operation : OperationResult}
    (fetched : operation.isFresh = true -> ∀ response, operation.result = .ok response ->
      ∃ request time, ⟨request, .ok response, time⟩ ∈ state.fetches) (sound : Sound config state) :
    Sound config (cacheDeeply upstream config operation state).2 := by
  unfold cacheDeeply
  split
  · next response deep isOk =>
      rw [Bool.and_eq_true] at deep
      have nested : Sound config (cacheNestedObjects upstream config response state).1 := by
        unfold cacheNestedObjects
        cases body : response.body with
        | bytes content => exact sound
        | json value =>
          apply cacheQueue_sound [value] state ⟨body, fetched deep.2 response isOk⟩ _ sound
          intro other member
          rw [mem_singleton.mp member]
          exact .whole
      cases outcome : cacheNestedObjects upstream config response state with
      | mk changed failure =>
        rw [outcome] at nested
        cases failure with
        | some failure => exact nested
        | none => exact nested
  · exact sound

lemma Sound.uncachedGet (sound : Sound config state) (path : Text) (relevant : Bool) :
    Sound config (uncachedGetInternal upstream config path relevant state).2 := by
  unfold uncachedGetInternal
  split
  · have fetchedMore : state.fetches ⊆ state.fetches ++
        [⟨.get path, (upstream.get path state.world).1,
          upstream.time (upstream.get path state.world).2⟩] :=
      subset_append_left _ _
    constructor
    · intro key node found
      rcases sound.gets key node found with ⟨lasts, nodeFor⟩
      exact ⟨lasts, nodeFor.mono fetchedMore (List.Subset.refl _)⟩
    · intro otherPath payload node found
      exact (sound.posts otherPath payload node found).mono fetchedMore (List.Subset.refl _)
  · rcases sound.getNode path with ⟨lasts, nodeFor⟩
    exact sound.readGet lasts (nodeFor_update upstream state.world nodeFor)

lemma cacheDeeply_answer {operation answered : OperationResult}
    (isAnswer : (cacheDeeply upstream config operation state).1 = .ok answered) :
    answered = operation := by
  unfold cacheDeeply at isAnswer
  split at isAnswer
  · split at isAnswer
    · cases isAnswer
    · cases isAnswer
      rfl
  · cases isAnswer
    rfl

variable [LinearOrder Time] [HAdd Time Duration Time]

lemma cachedRead_duration (node : CacheNode Time Duration Unit) (world : World) :
    (cachedRead upstream node world).node.duration = node.duration := by
  unfold cachedRead
  split
  · rfl
  · rfl

lemma cachedRead_fetched {world : World}
    (isFresh : (cachedRead upstream node world).operation.isFresh = true)
    (isOk : (cachedRead upstream node world).operation.result = .ok response) :
    ∃ request time, ⟨request, .ok response, time⟩ ∈ (cachedRead upstream node world).fetches := by
  unfold cachedRead at isFresh isOk ⊢
  split at isFresh
  · cases isFresh
  · next old =>
      rw [if_neg old] at isOk ⊢
      refine ⟨node.request, upstream.time (fetch upstream (upstream.pass world) node.request).2, ?_⟩
      rw [<- isOk]
      exact mem_singleton.mpr rfl

lemma cachedRead_timely (nodeFor : NodeFor state.fetches state.filings request node) :
    Timely state request node.duration (upstream.time state.world)
      (cachedRead upstream node state.world).operation := by
  intro cached
  unfold cachedRead at cached ⊢
  split at cached
  · next recent =>
      rw [if_pos recent]
      unfold CacheNode.recent at recent
      cases updated : node.lastUpdateTime with
      | none =>
        rw [updated] at recent
        cases recent
      | some time =>
        rw [updated, decide_eq_true_eq] at recent
        rcases nodeFor.holds time updated with ⟨response, isResult, readable, obtained⟩
        exact ⟨response, time, isResult, readable, obtained, recent⟩
  · cases cached

lemma Sound.answer (sound : Sound config state)
    (call : Call Duration) : Sound config (answer upstream config call state).2 := by
  cases call with
  | uncachedGet path relevant => exact sound.uncachedGet path relevant
  | cachedPost path payload duration =>
    have nodeFor := sound.postNode path payload duration
    exact sound.readPost (nodeFor_cachedRead upstream state.world nodeFor)
  | cachedGet path =>
    unfold Transport.answer cachedGetInternal
    simp only
    split
    · exact sound.uncachedGet path false
    · rcases sound.getNode path with ⟨lasts, nodeFor⟩
      apply cacheDeeply_sound
      · intro isFresh response isOk
        rcases cachedRead_fetched isFresh isOk with ⟨request, time, member⟩
        exact ⟨request, time, mem_append_right _ member⟩
      · apply sound.readGet
        · rw [cachedRead_duration]
          exact lasts
        · exact nodeFor_cachedRead upstream state.world nodeFor

lemma Reachable.sound (reachable : Reachable upstream config state) : Sound config state := by
  induction reachable with
  | start world => exact ⟨fun _ _ found => (nomatch found), fun _ _ _ found => (nomatch found)⟩
  | called reachable call ih => exact ih.answer call
  | waited reachable world ih => exact ⟨ih.gets, ih.posts⟩

end

/-- An upstream whose clock shows the world and that answers everything. -/
def willingUpstream : Upstream Nat Nat :=
  ⟨id, id, fun _ world => (.ok ⟨200, .json .null, []⟩, world),
    fun _ _ world => (.ok ⟨200, .bytes [], []⟩, world)⟩

def plainConfig : CacheConfig Nat := ⟨7, false, true⟩

/-- A POST was made at the time zero, for a duration of ten, and it is now five. -/
def postedState : CacheState Nat Nat Nat :=
  { (answer willingUpstream plainConfig (.cachedPost (text "/a") [] 10) (.start 0)).2 with
    world := 5 }

lemma postedState_reachable : Reachable willingUpstream plainConfig postedState :=
  .waited (.called (.start 0) _) 5

end Ecclesia.Transport
