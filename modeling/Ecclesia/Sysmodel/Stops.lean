import Ecclesia.Sysmodel.Queries

namespace Ecclesia.Sysmodel

open List

/-!
# A callback that says stop

The callback is to see what the chains of a type match, one chain after the other and each
drive once, up to the first object at which it says stop.  Within one chain it does.  A
second chain starts anew, except for the two types that remember the answer.
-/

section

variable {Object Iterable State : Type}

/-- The objects whose URI has not come yet, and those without one. -/
def oncePerUri (tree : RedfishTree Object Iterable) : List Text -> List Object -> List Object
  | _, [] => []
  | visited, object :: rest =>
    match tree.getUriString object with
    | some uri =>
      if uri ∈ visited then oncePerUri tree visited rest
      else object :: oncePerUri tree (visited ++ [uri]) rest
    | none => object :: oncePerUri tree visited rest

def matchedFirst (tree : RedfishTree Object Iterable) (queryParams : QueryParams)
    (resource : ResourceType) : List Object :=
  tree.matched (firstChain queryParams resource) (tree.getRoot {} (serviceRoot resource))

def matchedSecond (tree : RedfishTree Object Iterable) (queryParams : QueryParams)
    (resource : ResourceType) : List Object :=
  match secondChain queryParams resource with
  | none => []
  | some second => tree.matched second (tree.getRoot {} (serviceRoot resource))

/-- Drives are taken once for each URI. -/
def distinctFor (tree : RedfishTree Object Iterable) (resource : ResourceType)
    (objects : List Object) : List Object :=
  if resource = .drive then oncePerUri tree [] objects else objects

def resourcesOf (tree : RedfishTree Object Iterable) (queryParams : QueryParams)
    (resource : ResourceType) : List Object :=
  distinctFor tree resource
    (matchedFirst tree queryParams resource ++ matchedSecond tree queryParams resource)

def SharesUri (tree : RedfishTree Object Iterable) (others : List Object)
    (object : Object) : Prop :=
  ∃ other uri, other ∈ others ∧ tree.getUriString other = some uri ∧
    tree.getUriString object = some uri

/-- What a query sees if it does not go on after the first chain. -/
def seenInFirst (tree : RedfishTree Object Iterable)
    (resultCallback : Object -> State -> RedfishIterReturnValue × State)
    (queryParams : QueryParams) (resource : ResourceType) (state : State) :
    RedfishIterReturnValue × (State × List Object) :=
  visitUntil (recorded resultCallback)
    (distinctFor tree resource (matchedFirst tree queryParams resource)) (state, [])

/-- The types that remember the answer of the callback. -/
def remembersStop (resource : ResourceType) : Bool :=
  resource = .logService || resource = .softwareInventory

/-- A stop in the first chain leaves nothing for the second one. -/
def NothingLeft (tree : RedfishTree Object Iterable)
    (resultCallback : Object -> State -> RedfishIterReturnValue × State)
    (queryParams : QueryParams) (resource : ResourceType) (state : State) : Prop :=
  remembersStop resource = true ∨
    ((seenInFirst tree resultCallback queryParams resource state).1 = .stop ->
      ∀ object ∈ matchedSecond tree queryParams resource,
        resource = .drive ∧
          SharesUri tree (seenInFirst tree resultCallback queryParams resource state).2.2 object)

lemma queryBoth_eq (tree : RedfishTree Object Iterable)
    (resultCallback : Object -> State -> RedfishIterReturnValue × State)
    (root : RedfishVariant Object Iterable) (first second : List IndexType) (state : State) :
    queryBoth tree root first second resultCallback state =
      (visitUntil resultCallback (tree.matched second root)
        (visitUntil resultCallback (tree.matched first root) state).2).2 := by
  unfold queryBoth
  rw [RedfishTree.indexHelperDo_eq, RedfishTree.indexHelperDo_eq]

section

variable (resultCallback : Object -> State -> RedfishIterReturnValue × State)

/-- Going on after a stop is noticed unless there is nothing to see. -/
lemma visit_twice_iff (first second : List Object) (state : State × List Object) :
    (visitUntil (recorded resultCallback) second
        (visitUntil (recorded resultCallback) first state).2).2 =
        (visitUntil (recorded resultCallback) (first ++ second) state).2 ↔
      ((visitUntil (recorded resultCallback) first state).1 = .stop -> second = []) := by
  rw [visitUntil_append]
  rcases visitUntil (recorded resultCallback) first state with ⟨signal, after, log⟩
  cases signal with
  | proceed => simp
  | stop =>
    simp only [true_implies]
    constructor
    · intro same
      exact (record_eq_iff_nil resultCallback second after log).mp (congrArg Prod.snd same)
    · rintro rfl
      rfl

lemma visitUntil_remembering (objects : List Object) : ∀ state,
    visitUntil (fun object (returnVal : RedfishIterReturnValue × State) =>
        match resultCallback object returnVal.2 with
        | (answer, after) => (answer, (answer, after))) objects (.proceed, state) =
      ((visitUntil resultCallback objects state).1, visitUntil resultCallback objects state) := by
  induction objects with
  | nil => exact fun state => rfl
  | cons object rest ih =>
    intro state
    rw [visitUntil, visitUntil]
    rcases resultCallback object state with ⟨answer, after⟩
    cases answer with
    | stop => rfl
    | proceed => exact ih after

variable (tree : RedfishTree Object Iterable)

lemma queryBothUntilStop_eq (resultCallback : Object -> State -> RedfishIterReturnValue × State)
    (root : RedfishVariant Object Iterable) (first second : List IndexType) (state : State) :
    queryBothUntilStop tree root first second resultCallback state =
      (visitUntil resultCallback (tree.matched first root ++ tree.matched second root) state).2 := by
  unfold queryBothUntilStop
  simp only
  rw [RedfishTree.indexHelperDo_eq, visitUntil_remembering, visitUntil_append]
  simp only [RedfishTree.indexHelperDo_eq]
  rcases visitUntil resultCallback (tree.matched first root) state with ⟨answer, after⟩
  cases answer with
  | stop => rfl
  | proceed => rfl

variable {objects : List Object}

/-- Only the URIs that have come count, not their order. -/
lemma oncePerUri_congr :
    ∀ {first second : List Text}, (∀ uri, uri ∈ first ↔ uri ∈ second) ->
      oncePerUri tree first objects = oncePerUri tree second objects := by
  induction objects with
  | nil => exact fun _ => rfl
  | cons object rest ih =>
    intro first second same
    rw [oncePerUri, oncePerUri]
    cases tree.getUriString object with
    | none => simp only [ih same]
    | some uri =>
      have later : ∀ other, other ∈ first ++ [uri] ↔ other ∈ second ++ [uri] := by
        intro other
        rw [mem_append, mem_append, same]
      simp only [same, ih same, ih later]

lemma oncePerUri_append (first second : List Object) :
    ∀ visited : List Text,
      oncePerUri tree visited (first ++ second) =
        oncePerUri tree visited first ++
          oncePerUri tree (visited ++ first.filterMap tree.getUriString) second := by
  induction first with
  | nil => simp [oncePerUri]
  | cons object rest ih =>
    intro visited
    rw [cons_append, oncePerUri, oncePerUri]
    cases isUri : tree.getUriString object with
    | none =>
      simp only [ih]
      rw [filterMap_cons_none isUri]
      rfl
    | some uri =>
      rw [filterMap_cons_some isUri]
      by_cases isVisited : uri ∈ visited
      · simp only [if_pos isVisited, ih]
        congr 1
        apply oncePerUri_congr
        intro other
        simp only [mem_append, mem_cons]
        constructor
        · rintro (before | later)
          · exact .inl before
          · exact .inr (.inr later)
        · rintro (before | rfl | later)
          · exact .inl before
          · exact .inl isVisited
          · exact .inr later
      · simp only [if_neg isVisited, ih, append_assoc]
        rfl

/-- Nothing is left out for good: what is not taken has come before. -/
lemma mem_uris_oncePerUri {other : Text} : ∀ {visited : List Text},
    (other ∈ visited ∨ other ∈ (oncePerUri tree visited objects).filterMap tree.getUriString) ↔
      other ∈ visited ∨ other ∈ objects.filterMap tree.getUriString := by
  induction objects with
  | nil => exact .rfl
  | cons object rest ih =>
    intro visited
    rw [oncePerUri]
    cases isUri : tree.getUriString object with
    | none =>
      simp only [filterMap_cons_none isUri]
      exact ih
    | some uri =>
      rw [filterMap_cons_some isUri, mem_cons]
      by_cases isVisited : uri ∈ visited
      · simp only [if_pos isVisited]
        rw [ih]
        constructor
        · rintro (before | later)
          · exact .inl before
          · exact .inr (.inr later)
        · rintro (before | rfl | later)
          · exact .inl before
          · exact .inl isVisited
          · exact .inr later
      · simp only [if_neg isVisited, filterMap_cons_some isUri, mem_cons]
        have later := @ih (visited ++ [uri])
        rw [mem_append, mem_singleton, or_assoc, or_assoc] at later
        exact later

lemma oncePerUri_eq_nil_iff {visited : List Text} :
    oncePerUri tree visited objects = [] ↔
      ∀ object ∈ objects, ∃ uri ∈ visited, tree.getUriString object = some uri := by
  induction objects with
  | nil => simp [oncePerUri]
  | cons object rest ih =>
    rw [oncePerUri, forall_mem_cons, <- ih]
    cases tree.getUriString object with
    | none => simp
    | some uri =>
      by_cases isVisited : uri ∈ visited
      · simp [isVisited]
      · simp [isVisited]

lemma visitUntil_callbackOncePerUri
    (resultCallback : Object -> State -> RedfishIterReturnValue × State) (objects : List Object) :
    ∀ (visited : HashSet Text) (state : State) (log : List Object), ∃ after seen,
      visitUntil (callbackOncePerUri tree (recorded resultCallback)) objects (visited, (state, log)) =
        ((visitUntil (recorded resultCallback) (oncePerUri tree visited.elements objects)
            (state, log)).1,
          (after, (visitUntil (recorded resultCallback)
            (oncePerUri tree visited.elements objects) (state, log)).2)) ∧
      (visitUntil (recorded resultCallback) (oncePerUri tree visited.elements objects)
        (state, log)).2.2 = log ++ seen ∧
      ∀ uri, uri ∈ after.elements ↔
        uri ∈ visited.elements ∨ uri ∈ seen.filterMap tree.getUriString := by
  induction objects with
  | nil =>
    intro visited state log
    exact ⟨visited, [], rfl, (append_nil log).symm, by simp⟩
  | cons object rest ih =>
    intro visited state log
    rw [visitUntil, oncePerUri, callbackOncePerUri]
    cases isUri : tree.getUriString object with
    | none =>
      simp only [visitUntil, recorded]
      rcases resultCallback object state with ⟨answer, next⟩
      cases answer with
      | stop =>
        refine ⟨visited, [object], rfl, rfl, ?_⟩
        simp [isUri]
      | proceed =>
        rcases ih visited next (log ++ [object]) with ⟨after, seen, same, grown, uris⟩
        refine ⟨after, object :: seen, same, ?_, ?_⟩
        · rw [grown, append_assoc]
          rfl
        · rw [filterMap_cons_none isUri]
          exact uris
    | some uri =>
      by_cases isVisited : uri ∈ visited.elements
      · simp only [if_pos isVisited]
        exact ih visited state log
      · have larger := HashSet.elements_insert isVisited
        simp only [if_neg isVisited, visitUntil, recorded]
        rcases resultCallback object state with ⟨answer, next⟩
        cases answer with
        | stop =>
          refine ⟨visited.insert uri, [object], rfl, rfl, ?_⟩
          simp [isUri, larger]
        | proceed =>
          rcases ih (visited.insert uri) next (log ++ [object]) with
            ⟨after, seen, same, grown, uris⟩
          rw [larger] at same grown uris
          refine ⟨after, object :: seen, same, ?_, ?_⟩
          · rw [grown, append_assoc]
            rfl
          · intro other
            rw [uris, filterMap_cons_some isUri, mem_append, mem_singleton, mem_cons, or_assoc]

lemma sharesUri_iff {others : List Object} {object : Object} :
    SharesUri tree others object ↔
      ∃ uri ∈ others.filterMap tree.getUriString, tree.getUriString object = some uri := by
  simp only [mem_filterMap]
  constructor
  · rintro ⟨other, uri, isOther, isUri, same⟩
    exact ⟨uri, ⟨other, isOther, isUri⟩, same⟩
  · rintro ⟨uri, ⟨other, isOther, isUri⟩, same⟩
    exact ⟨other, uri, isOther, isUri, same⟩

lemma queryBoth_once_iff (resultCallback : Object -> State -> RedfishIterReturnValue × State)
    (first second : List Object) (state : State) :
    (visitUntil (callbackOncePerUri tree (recorded resultCallback)) second
        (visitUntil (callbackOncePerUri tree (recorded resultCallback)) first
          (⟨[], nodup_nil⟩, (state, []))).2).2.2 =
        (visitUntil (recorded resultCallback) (oncePerUri tree [] (first ++ second))
          (state, [])).2 ↔
      ((visitUntil (recorded resultCallback) (oncePerUri tree [] first) (state, [])).1 = .stop ->
        ∀ object ∈ second, SharesUri tree
          (visitUntil (recorded resultCallback) (oncePerUri tree [] first) (state, [])).2.2
          object) := by
  rcases visitUntil_callbackOncePerUri tree resultCallback first ⟨[], nodup_nil⟩ state [] with
    ⟨visited, seen, sameFirst, grown, uris⟩
  rcases seenAll : visitUntil_recorded resultCallback (oncePerUri tree [] first) state [] with
    ⟨called, appended, _, all, _⟩
  rw [sameFirst, oncePerUri_append, visitUntil_append]
  simp only [nil_append] at grown appended uris
  have shared : (∀ object ∈ second, SharesUri tree seen object) ↔
      oncePerUri tree visited.elements second = [] := by
    rw [oncePerUri_eq_nil_iff]
    simp only [sharesUri_iff, uris, not_mem_nil, false_or]
  rw [grown] at appended ⊢
  rw [shared]
  rcases result : visitUntil (recorded resultCallback) (oncePerUri tree [] first) (state, []) with
    ⟨signal, after, log⟩
  rw [result] at all grown
  rcases visitUntil_callbackOncePerUri tree resultCallback second visited after log with
    ⟨last, seenLater, sameSecond, grownLater, _⟩
  rw [sameSecond]
  cases signal with
  | proceed =>
    have sameUris : oncePerUri tree visited.elements second =
        oncePerUri tree ([] ++ first.filterMap tree.getUriString) second := by
      apply oncePerUri_congr
      intro uri
      have covered := @mem_uris_oncePerUri _ _ tree first uri []
      rw [uris, appended, all rfl]
      exact covered.trans (by simp)
    simp [sameUris]
  | stop =>
    simp only [true_implies]
    constructor
    · intro same
      exact (record_eq_iff_nil resultCallback _ after log).mp (congrArg Prod.snd same)
    · intro none
      rw [none]
      rfl

end

variable {tree : RedfishTree Object Iterable}
  {resultCallback : Object -> State -> RedfishIterReturnValue × State} {queryParams : QueryParams}
  {resource : ResourceType}

variable (tree resultCallback queryParams resource) in
/-- What a stop of the callback leaves of a query. -/
def StopsProperly (state : State) : Prop :=
  queryAllResourceInternal tree (recorded resultCallback) queryParams resource (state, []) =
      (visitUntil (recorded resultCallback) (resourcesOf tree queryParams resource) (state, [])).2 ↔
    NothingLeft tree resultCallback queryParams resource state

variable (notDrive : resource ≠ .drive)

include notDrive

lemma stops_of_one (one : secondChain queryParams resource = none) (state : State)
    (query : queryAllResourceInternal tree (recorded resultCallback) queryParams resource (state, []) =
      (tree.indexHelperDo (recorded resultCallback) (firstChain queryParams resource)
        (tree.getRoot {} (serviceRoot resource)) (state, [])).2) :
    StopsProperly tree resultCallback queryParams resource state := by
  unfold StopsProperly resourcesOf NothingLeft distinctFor matchedFirst matchedSecond
  rw [query, RedfishTree.indexHelperDo_eq, one, if_neg notDrive]
  simp

section

variable {second : List IndexType} (two : secondChain queryParams resource = some second)
  (state : State)

include two

lemma stops_of_two
    (query : queryAllResourceInternal tree (recorded resultCallback) queryParams resource (state, []) =
      queryBoth tree (tree.getRoot {} (serviceRoot resource)) (firstChain queryParams resource) second
        (recorded resultCallback) (state, [])) (forgets : remembersStop resource = false) :
    StopsProperly tree resultCallback queryParams resource state := by
  unfold StopsProperly resourcesOf NothingLeft seenInFirst distinctFor matchedFirst matchedSecond
  rw [query, queryBoth_eq, two, if_neg notDrive, if_neg notDrive, visit_twice_iff, forgets]
  simp only [Bool.false_eq_true, false_or, notDrive, false_and, eq_nil_iff_forall_not_mem]

lemma stops_of_remembering
    (query : queryAllResourceInternal tree (recorded resultCallback) queryParams resource (state, []) =
      queryBothUntilStop tree (tree.getRoot {} (serviceRoot resource))
        (firstChain queryParams resource) second (recorded resultCallback) (state, []))
    (remembers : remembersStop resource = true) :
    StopsProperly tree resultCallback queryParams resource state := by
  unfold StopsProperly resourcesOf NothingLeft distinctFor matchedFirst matchedSecond
  rw [query, queryBothUntilStop_eq, two, if_neg notDrive]
  exact ⟨fun _ => .inl remembers, fun _ => rfl⟩

end

end

/-- A query calls the callback with the resources of its type up to the first stop, and no others,
exactly if a stop in the first of two chains leaves nothing for the second. -/
theorem queryAllResourceInternal_stops_iff :
    ∀ (Object Iterable State : Type) (tree : RedfishTree Object Iterable)
      (resultCallback : Object -> State -> RedfishIterReturnValue × State)
      (queryParams : QueryParams) (resource : ResourceType) (state : State),
      queryAllResourceInternal tree (recorded resultCallback) queryParams resource (state, []) =
          (visitUntil (recorded resultCallback) (resourcesOf tree queryParams resource)
            (state, [])).2 ↔
        NothingLeft tree resultCallback queryParams resource state := by
  intro Object Iterable State tree resultCallback queryParams resource state
  cases resource with
  | drive =>
    unfold NothingLeft seenInFirst resourcesOf distinctFor matchedFirst matchedSecond
    simp only [queryAllResourceInternal, secondChain, queryBoth_eq, if_true, true_and]
    rw [queryBoth_once_iff]
    exact ⟨.inr, fun either => either.resolve_left Bool.false_ne_true⟩
  | storageController => exact stops_of_two ResourceType.noConfusion rfl state rfl rfl
  | ethernetInterface => exact stops_of_two ResourceType.noConfusion rfl state rfl rfl
  | logService => exact stops_of_remembering ResourceType.noConfusion rfl state rfl rfl
  | softwareInventory => exact stops_of_remembering ResourceType.noConfusion rfl state rfl rfl
  | _ => exact stops_of_one ResourceType.noConfusion rfl state rfl

/-- A service on which every chain matches one object. -/
def oneOfEach : RedfishTree Unit Unit where
  getRoot _ _ := ⟨.okStatus, some (), some (), none, none⟩
  property _ _ := ⟨.okStatus, some (), some (), none, none⟩
  get _ _ _ := ⟨.okStatus, some (), some (), none, none⟩
  getUriString _ := none
  size _ := 1
  element _ _ := ⟨.okStatus, some (), some (), none, none⟩

/-- A callback that stops at once is called with the interface of a system and then with that
of a manager. -/
theorem ethernetInterface_called_after_stop :
    ¬ ∀ (Object Iterable State : Type) (tree : RedfishTree Object Iterable)
      (resultCallback : Object -> State -> RedfishIterReturnValue × State)
      (queryParams : QueryParams) (resource : ResourceType) (state : State),
      queryAllResourceInternal tree (recorded resultCallback) queryParams resource (state, []) =
        (visitUntil (recorded resultCallback) (resourcesOf tree queryParams resource)
          (state, [])).2 := by
  intro always
  have called := always Unit Unit Unit oneOfEach (fun _ _ => (.stop, ())) ⟨0, .optional⟩
    .ethernetInterface ()
  exact absurd (congrArg (fun seen => seen.2.length) called) (by decide)

end Ecclesia.Sysmodel
