import Ecclesia.Subscription.Events

namespace Ecclesia.Subscription

open Absl List

/-!
# From a configuration to an event and back

Trigger ids are distinct for every list of configurations: the suffix is a
number and contains no dash, so the last dash separates it from the part that
is counted.  Reading an id back is another matter.  The context is cut at
every dash, so a dash in a query id or in a RedPath makes the context
unreadable, and an unreadable context ends the loop over the events.

The main result says for which configurations and events the callback
receives what it should.
-/

lemma dash_not_mem_strCatNat (n : Nat) : '-' ∉ strCatNat n := by
  intro member
  have digit := Nat.isDigit_of_mem_toDigits (by decide) (by decide) member
  exact absurd digit (by decide)

/-- Cutting an id: the pieces of its first part, and the suffix. -/
lemma strSplit_id (t : Text) (n : Nat) :
    strSplit '-' (t ++ '-' :: strCatNat n) = strSplit '-' t ++ [strCatNat n] := by
  rw [strSplit, splitOn_append_cons_self, splitOn_eq_singleton (dash_not_mem_strCatNat n)]
  rfl

/-- An id determines the part before its suffix, and the suffix. -/
lemma id_injective {firstId secondId : Text} {first second : Nat}
    (same : firstId ++ '-' :: strCatNat first = secondId ++ '-' :: strCatNat second) :
    firstId = secondId ∧ first = second := by
  have pieces := congrArg (strSplit '-') same
  rw [strSplit_id, strSplit_id] at pieces
  have parts := append_inj' pieces rfl
  constructor
  · have joined := congrArg (List.intercalate ['-']) parts.1
    simpa only [strSplit, intercalate_splitOn] using joined
  · exact strCatNat_injective (cons.inj parts.2).1

variable {occurrences : Text -> Nat} {configurations : List Configuration} {triggers : List Trigger}

/-- The triggers of accepted configurations: the id of each has the count of its part as its
suffix. -/
inductive Numbered : (Text -> Nat) -> List Configuration -> List Trigger -> Prop where
  | nil {occurrences : Text -> Nat} : Numbered occurrences [] []
  | cons {occurrences : Text -> Nat} {config : Configuration} {rest : List Configuration}
      {others : List Trigger}
      (later : Numbered (Function.update occurrences (triggerIdOf config)
        (occurrences (triggerIdOf config) + 1)) rest others) :
      Numbered occurrences (config :: rest) (⟨config.uris,
        triggerIdOf config ++ '-' :: strCatNat (occurrences (triggerIdOf config)),
        config.predicate⟩ :: others)

lemma numbered_of_created (created : createTriggersFrom occurrences configurations = .ok triggers) :
    Numbered occurrences configurations triggers := by
  induction configurations generalizing occurrences triggers with
  | nil =>
    cases created
    exact .nil
  | cons config rest ih =>
    simp only [createTriggersFrom] at created
    split_ifs at created
    split at created
    · cases created
    · rename_i others later
      cases created
      exact .cons (ih later)

section

variable (numbered : Numbered occurrences configurations triggers)

include numbered

/-- There is a trigger for each configuration, with a suffix that is not below the count the loop
started from. -/
lemma Numbered.ids :
    ∀ pair ∈ configurations.zip triggers,
      ∃ n, occurrences (triggerIdOf pair.1) <= n ∧
        pair.2.id = triggerIdOf pair.1 ++ '-' :: strCatNat n := by
  induction numbered with
  | nil =>
    exact forall_mem_nil _
  | @cons occurrences config rest others later ih =>
    intro pair member
    rw [zip_cons_cons, mem_cons] at member
    rcases member with rfl | member
    · exact ⟨occurrences (triggerIdOf config), le_rfl, rfl⟩
    · rcases ih pair member with ⟨n, counted, id⟩
      refine ⟨n, ?_, id⟩
      by_cases repeated : triggerIdOf pair.1 = triggerIdOf config
      · rw [repeated, Function.update_self] at counted
        rw [repeated]
        omega
      · rwa [Function.update_of_ne repeated] at counted

lemma Numbered.length : triggers.length = configurations.length := by
  induction numbered with
  | nil => rfl
  | cons later ih => rw [length_cons, length_cons, ih]

lemma Numbered.nodup : (triggers.map Trigger.id).Nodup := by
  induction numbered with
  | nil => exact nodup_nil
  | @cons occurrences config rest others later ih =>
    rw [map_cons, nodup_cons]
    refine ⟨?_, ih⟩
    intro member
    rcases mem_map.mp member with ⟨trigger, listed, same⟩
    -- A later trigger with the same id would carry a larger number.
    rcases getElem_of_mem listed with ⟨position, bound, found⟩
    have boundConfig : position < rest.length := by
      rw [<- later.length]
      exact bound
    have paired : (rest[position], trigger) ∈ rest.zip others := by
      rw [<- found]
      exact mem_iff_getElem.mpr ⟨position, by
        rw [length_zip]
        omega, by rw [getElem_zip]⟩
    rcases later.ids _ paired with ⟨n, counted, id⟩
    have equal := id_injective (same.symm.trans id)
    rw [<- equal.1, Function.update_self] at counted
    omega

end

section

variable {Object Iterable : Type} (views : EventViews Object Iterable)

/-- The loop goes on behind an element that is no object, or has a context of three parts, an event
id and a time stamp. -/
def Passable (element : RedfishVariant Object Iterable) : Prop :=
  ∀ object, element.object = some object ->
    (∃ context, views.getNodeValue object (text "Context") = some context ∧
      (strSplit '-' context).length = 3) ∧
    (views.getNodeValue object (text "EventId")).isSome ∧
    (views.getNodeValue object (text "EventTimestamp")).isSome

lemma handleSingleEvent_leave_iff (element : RedfishVariant Object Iterable) :
    handleSingleEvent views element = .leave ↔ ¬ Passable views element := by
  unfold Passable handleSingleEvent
  cases shown : element.object with
  | none => simp
  | some object =>
    cases hasContext : views.getNodeValue object (text "Context") with
    | none => simp [hasContext]
    | some context =>
      cases pieces : strSplit '-' context with
      | nil => simp [hasContext, pieces]
      | cons first rest =>
        cases rest with
        | nil => simp [hasContext, pieces]
        | cons second rest =>
          cases rest with
          | nil => simp [hasContext, pieces]
          | cons third rest =>
            cases rest with
            | cons fourth rest => simp [hasContext, pieces]
            | nil =>
              cases hasId : views.getNodeValue object (text "EventId") with
              | none => simp [hasContext, pieces, hasId]
              | some eventId =>
                cases hasTime : views.getNodeValue object (text "EventTimestamp") with
                | none => simp [hasContext, pieces, hasId, hasTime]
                | some timestamp =>
                  by_cases resolved : (views.get object (text "OriginOfCondition")).status.isOk
                  · simp [hasContext, pieces, hasId, hasTime, resolved]
                  · simp [hasContext, pieces, hasId, hasTime, resolved]

variable {before : List (RedfishVariant Object Iterable)}

lemma handleEvents_append (passable : ∀ element ∈ before, Passable views element)
    (rest : List (RedfishVariant Object Iterable)) :
    handleEvents views (before ++ rest) = handleEvents views before ++ handleEvents views rest := by
  induction before with
  | nil => rfl
  | cons element before ih =>
    have later := ih fun other member => passable other (.tail _ member)
    rw [cons_append, handleEvents, handleEvents]
    cases turn : handleSingleEvent views element with
    | invoke invocation => simp only [later, cons_append]
    | next => simp only [later]
    | leave =>
      exact absurd (passable element (.head _))
        ((handleSingleEvent_leave_iff views element).mp turn)

/-- Behind an element that ends the loop nothing is called. -/
lemma handleEvents_append_of_leave (blocked : ¬ ∀ element ∈ before, Passable views element)
    (rest : List (RedfishVariant Object Iterable)) :
    handleEvents views (before ++ rest) = handleEvents views before := by
  induction before with
  | nil => exact absurd (forall_mem_nil _) blocked
  | cons element before ih =>
    rw [cons_append, handleEvents, handleEvents]
    by_cases passes : Passable views element
    · have blockedLater : ¬ ∀ other ∈ before, Passable views other := by
        intro all
        apply blocked
        intro other member
        rcases mem_cons.mp member with rfl | member
        · exact passes
        · exact all other member
      rw [ih blockedLater]
    · rw [(handleSingleEvent_leave_iff views element).mpr passes]

lemma two_le_length_strSplit {t : Text} (member : '-' ∈ t) : 2 <= (strSplit '-' t).length := by
  rcases append_of_mem member with ⟨before, after, rfl⟩
  rw [strSplit, splitOn_append_cons_self, length_append]
  have first := length_pos_of_ne_nil (splitOn_ne_nil '-' before)
  have second := length_pos_of_ne_nil (splitOn_ne_nil '-' after)
  omega

lemma strSplit_triggerId (config : Configuration) (n : Nat) :
    strSplit '-' (triggerIdOf config ++ '-' :: strCatNat n) =
      strSplit '-' config.queryId ++ strSplit '-' config.redpath ++ [strCatNat n] := by
  rw [strSplit_id, triggerIdOf, strSplit, splitOn_append_cons_self]
  rfl

/-- The context of a trigger has three parts exactly when neither the query id
nor the RedPath contains a dash. -/
lemma length_strSplit_triggerId (config : Configuration) (n : Nat) :
    (strSplit '-' (triggerIdOf config ++ '-' :: strCatNat n)).length = 3 ↔
      '-' ∉ config.queryId ∧ '-' ∉ config.redpath := by
  rw [strSplit_triggerId, length_append, length_append]
  have first := length_pos_of_ne_nil (splitOn_ne_nil '-' config.queryId)
  have second := length_pos_of_ne_nil (splitOn_ne_nil '-' config.redpath)
  change 0 < (strSplit '-' config.queryId).length at first
  change 0 < (strSplit '-' config.redpath).length at second
  constructor
  · intro three
    rw [length_singleton] at three
    constructor
    · intro member
      have long := two_le_length_strSplit member
      omega
    · intro member
      have long := two_le_length_strSplit member
      omega
  · rintro ⟨plainId, plainPath⟩
    rw [strSplit, splitOn_eq_singleton plainId, strSplit, splitOn_eq_singleton plainPath]
    rfl

/-- An element with the id of the trigger as its context, an event id, a time stamp and an origin.
-/
structure Complete (trigger : Trigger) (element : RedfishVariant Object Iterable)
    (object : Object) (eventId timestamp : Text) : Prop where
  isObject : element.object = some object
  context : views.getNodeValue object (text "Context") = some trigger.id
  eventId : views.getNodeValue object (text "EventId") = some eventId
  timestamp : views.getNodeValue object (text "EventTimestamp") = some timestamp
  origin : (views.get object (text "OriginOfCondition")).status.isOk = true

/-- What the callback should receive for such an element. -/
def expectedInvocation (config : Configuration) (object : Object) (eventId timestamp : Text) :
    Invocation Object Iterable :=
  ⟨views.get object (text "OriginOfCondition"),
    ⟨config.queryId, config.redpath, eventId, timestamp⟩⟩

variable {element : RedfishVariant Object Iterable}

lemma handleSingleEvent_of_plain {config : Configuration} {trigger : Trigger} {n : Nat}
    (id : trigger.id = triggerIdOf config ++ '-' :: strCatNat n) (plainId : '-' ∉ config.queryId)
    (plainPath : '-' ∉ config.redpath) {object : Object} {eventId timestamp : Text}
    (complete : Complete views trigger element object eventId timestamp) :
    handleSingleEvent views element =
      .invoke (expectedInvocation views config object eventId timestamp) := by
  have pieces : strSplit '-' trigger.id = [config.queryId, config.redpath, strCatNat n] := by
    rw [id, strSplit_triggerId, strSplit, splitOn_eq_singleton plainId, strSplit,
      splitOn_eq_singleton plainPath]
    rfl
  simp only [handleSingleEvent, complete.isObject, complete.context, complete.eventId,
    complete.timestamp, complete.origin, pieces, if_true, expectedInvocation]

lemma handleSingleEvent_of_dash {config : Configuration} {trigger : Trigger} {n : Nat}
    (id : trigger.id = triggerIdOf config ++ '-' :: strCatNat n)
    (dash : ¬ ('-' ∉ config.queryId ∧ '-' ∉ config.redpath)) {object : Object}
    {eventId timestamp : Text}
    (complete : Complete views trigger element object eventId timestamp) :
    handleSingleEvent views element = .leave := by
  rw [handleSingleEvent_leave_iff]
  intro passable
  rcases passable object complete.isObject with ⟨⟨context, found, three⟩, -, -⟩
  rw [complete.context] at found
  cases found
  rw [id] at three
  exact dash ((length_strSplit_triggerId config n).mp three)

/-- The callback is called for every complete element, in order, with its query id and RedPath. -/
def ServesComplete (configurations : List Configuration) (triggers : List Trigger)
    (elements : List (RedfishVariant Object Iterable))
    (invocations : List (Invocation Object Iterable)) : Prop :=
  ∀ before element after, elements = before ++ element :: after ->
    ∀ config trigger, (config, trigger) ∈ configurations.zip triggers ->
      ∀ object eventId timestamp,
        Complete views trigger element object eventId timestamp ->
          invocations = handleEvents views before ++
            expectedInvocation views config object eventId timestamp :: handleEvents views after

/-- Complete elements belong to configurations without a dash, and nothing ends the loop before
them. -/
def Reachable (configurations : List Configuration) (triggers : List Trigger)
    (elements : List (RedfishVariant Object Iterable)) : Prop :=
  ∀ before element after, elements = before ++ element :: after ->
    ∀ config trigger, (config, trigger) ∈ configurations.zip triggers ->
      ∀ object eventId timestamp,
        Complete views trigger element object eventId timestamp ->
          ('-' ∉ config.queryId ∧ '-' ∉ config.redpath) ∧ ∀ earlier ∈ before, Passable views earlier

variable {configurations : List Configuration} {elements : List (RedfishVariant Object Iterable)}

lemma servesComplete_of_reachable {triggers : List Trigger}
    (created : createTriggers configurations = .ok triggers)
    (reachable : Reachable views configurations triggers elements) :
    ServesComplete views configurations triggers elements (handleEvents views elements) := by
  intro before element after parts config trigger paired object eventId timestamp complete
  rcases reachable before element after parts config trigger paired object eventId timestamp
    complete with ⟨⟨plainId, plainPath⟩, passable⟩
  rcases (numbered_of_created created).ids (config, trigger) paired with ⟨n, -, id⟩
  rw [parts, handleEvents_append views passable, handleEvents,
    handleSingleEvent_of_plain views id plainId plainPath complete]

lemma reachable_of_servesComplete
    {triggers : List Trigger} (created : createTriggers configurations = .ok triggers)
    (serves : ServesComplete views configurations triggers elements (handleEvents views elements)) :
    Reachable views configurations triggers elements := by
  intro before element after parts config trigger paired object eventId timestamp complete
  rcases (numbered_of_created created).ids (config, trigger) paired with ⟨n, -, id⟩
  have served := serves before element after parts config trigger paired object eventId
    timestamp complete
  rw [parts] at served
  have passable : ∀ earlier ∈ before, Passable views earlier := by
    by_contra blocked
    rw [handleEvents_append_of_leave views blocked] at served
    have lengths := congrArg List.length served
    rw [length_append, length_cons] at lengths
    omega
  refine ⟨?_, passable⟩
  by_contra dash
  rw [handleEvents_append views passable, handleEvents,
    handleSingleEvent_of_dash views id dash complete] at served
  exact absurd (append_cancel_left served) (by simp)

/-- For every list of configurations that `CreateTriggers` accepts and every event, the trigger ids
are distinct; and the callback is served for all complete elements exactly when no configuration of
theirs has a dash and no element before them ends the loop. -/
theorem handleEvent_serves_iff (configurations : List Configuration) (triggers : List Trigger)
    (created : createTriggers configurations = .ok triggers)
    (event : RedfishVariant Object Iterable) (elements : List (RedfishVariant Object Iterable))
    (listed : eventElements views event = some elements) :
    ((triggers.map Trigger.id).Nodup ∧
      ServesComplete views configurations triggers elements (handleEvent views event)) ↔
      Reachable views configurations triggers elements := by
  have handled : handleEvent views event = handleEvents views elements := by
    rw [handleEvent, listed]
  rw [handled]
  constructor
  · rintro ⟨-, serves⟩
    exact reachable_of_servesComplete views created serves
  · intro reachable
    exact ⟨(numbered_of_created created).nodup, servesComplete_of_reachable views created reachable⟩

end

/-- The payload of an event with string members, for concrete events. -/
inductive Payload where
  | events (elements : List (List (Text × Text)))
  | members (fields : List (Text × Text))
deriving DecidableEq

/-- The accessors of such a payload. -/
def payloadViews : EventViews Payload (List (List (Text × Text))) where
  get payload name :=
    match payload with
    | .events elements =>
      if name = text "Events" then .ofIterable elements
      else .ofStatus (.notFound (text "no such member"))
    | .members fields =>
      match fields.lookup name with
      | some value => .ofString value
      | none => .ofStatus (.notFound (text "no such member"))
  size elements := elements.length
  index elements position :=
    match elements[position]? with
    | some fields => .ofObject (.members fields)
    | none => .ofStatus (.notFound (text "index out of range"))

def chassisConfiguration (queryId : Text) : Configuration :=
  ⟨queryId, text "/Chassis[*]", [text "/redfish/v1/Chassis/1"], text "*"⟩

/-- The trigger of this configuration, when it is alone. -/
def chassisTrigger (queryId : Text) : Trigger :=
  ⟨[text "/redfish/v1/Chassis/1"], queryId ++ text "-/Chassis[*]-0", text "*"⟩

/-- The members of an element that answers the trigger with this id. -/
def answer (id : Text) : List (Text × Text) :=
  [(text "Context", id), (text "EventId", text "7"), (text "EventTimestamp", text "t"),
    (text "OriginOfCondition", text "/redfish/v1/Chassis/1")]

lemma complete_answer (trigger : Trigger) :
    Complete payloadViews trigger (.ofObject (.members (answer trigger.id)))
      (.members (answer trigger.id)) (text "7") (text "t") := by
  constructor <;> rfl

/-- One element for a configuration without a dash: the callback is called with
its query id and its RedPath. -/
theorem handleEvent_serves_chassis :
    createTriggers [chassisConfiguration (text "q")] = .ok [chassisTrigger (text "q")] ∧
      (([chassisTrigger (text "q")].map Trigger.id).Nodup ∧
        ServesComplete payloadViews [chassisConfiguration (text "q")] [chassisTrigger (text "q")]
          [.ofObject (.members (answer (text "q-/Chassis[*]-0")))]
          (handleEvent payloadViews (.ofObject (.events [answer (text "q-/Chassis[*]-0")])))) := by
  refine ⟨rfl, (handleEvent_serves_iff payloadViews [chassisConfiguration (text "q")]
    [chassisTrigger (text "q")] rfl (.ofObject (.events [answer (text "q-/Chassis[*]-0")]))
    [.ofObject (.members (answer (text "q-/Chassis[*]-0")))] rfl).mpr ?_⟩
  intro before element after parts config trigger paired object eventId timestamp complete
  rw [List.zip_cons_cons, List.zip_nil_left, List.mem_singleton] at paired
  rcases paired with ⟨rfl, rfl⟩
  refine ⟨by decide, ?_⟩
  cases before with
  | nil =>
    exact List.forall_mem_nil _
  | cons first rest =>
    have lengths := congrArg List.length parts
    simp at lengths

/-- With a dash in the query id, or behind an element without a context, an event reaches no
callback. -/
theorem event_not_served :
    (createTriggers [chassisConfiguration (text "cpu-count")] =
        .ok [chassisTrigger (text "cpu-count")] ∧
      ¬ ServesComplete payloadViews [chassisConfiguration (text "cpu-count")]
        [chassisTrigger (text "cpu-count")]
        [.ofObject (.members (answer (text "cpu-count-/Chassis[*]-0")))]
        (handleEvent payloadViews
          (.ofObject (.events [answer (text "cpu-count-/Chassis[*]-0")])))) ∧
    (createTriggers [chassisConfiguration (text "q")] = .ok [chassisTrigger (text "q")] ∧
      ¬ ServesComplete payloadViews [chassisConfiguration (text "q")]
        [chassisTrigger (text "q")]
        [.ofObject (.members []), .ofObject (.members (answer (text "q-/Chassis[*]-0")))]
        (handleEvent payloadViews
          (.ofObject (.events [[], answer (text "q-/Chassis[*]-0")])))) := by
  refine ⟨⟨rfl, ?_⟩, ⟨rfl, ?_⟩⟩
  · intro serves
    have served := serves [] _ [] rfl _ _ (.head _) _ _ _
      (complete_answer (chassisTrigger (text "cpu-count")))
    exact nomatch served
  · intro serves
    have served := serves [.ofObject (.members [])] _ [] rfl _ _ (.head _) _ _ _
      (complete_answer (chassisTrigger (text "q")))
    exact nomatch served

end Ecclesia.Subscription
