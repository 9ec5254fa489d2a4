import Ecclesia.Library.OrderedMultiset
import Ecclesia.Server.Notify
import Mathlib.Data.List.Induction

namespace Ecclesia.Server

open List
open OrderedMultiset (Ordered mem_insert withKey)

/-!
# The store of events

Events that were sent are kept in a store of a fixed size, so that a subscriber that
comes back can have what it missed.  The store is ordered by the time stamps of the
events, whatever the order in which they come in, and the event with the earliest time
stamp makes room for a new one.  The definitions follow `event_store.cc`.
-/

section

variable {Time : Type}

structure EventId (Time : Type) where
  sourceId : EventSourceId
  timestamp : Time
  subscriptionId : Nat
  redfishEventId : Nat

structure EventContext (Time : Type) where
  eventId : EventId Time
  event : Json

/-- The comparison of `TimestampComparator` is one of time stamps. -/
def EventContext.timestamp (context : EventContext Time) : Time := context.eventId.timestamp

/-- `EventStoreImpl`, with the contexts in their order of iteration. -/
structure EventStore (Time : Type) where
  storeSize : Nat
  eventContexts : List (EventContext Time)

namespace EventStore

def create (storeSize : Nat) : EventStore Time := ⟨storeSize, []⟩

/-- `erase(begin())`, which has no meaning for an empty set. -/
def eraseBegin : List (EventContext Time) -> Option (List (EventContext Time))
  | [] => none
  | _ :: rest => some rest

/-- The contexts that stay when a new one comes. -/
def makeRoom (store : EventStore Time) : Option (List (EventContext Time)) :=
  if store.eventContexts.length = store.storeSize then eraseBegin store.eventContexts
  else some store.eventContexts

def addNewEvent [LinearOrder Time] (store : EventStore Time) (eventId : EventId Time)
    (event : Json) : Option (EventStore Time) :=
  store.makeRoom.map fun kept =>
    ⟨store.storeSize, OrderedMultiset.insert EventContext.timestamp ⟨eventId, event⟩ kept⟩

def clear (store : EventStore Time) : EventStore Time := { store with eventContexts := [] }

/-- The loop of `GetEventsSince`, with the subscription of the given event once it has been
found. -/
def eventsSince (redfishEventId : Nat) : Option Nat -> List (EventContext Time) -> List Json
  | _, [] => []
  | subscriptionId, context :: rest =>
    let next :=
      if context.eventId.redfishEventId = redfishEventId then
        some context.eventId.subscriptionId
      else subscriptionId
    if subscriptionId = some context.eventId.subscriptionId then
      context.event :: eventsSince redfishEventId next rest
    else eventsSince redfishEventId next rest

def getEventsSince (store : EventStore Time) (redfishEventId : Option Nat) : List Json :=
  match redfishEventId with
  | none => store.eventContexts.map EventContext.event
  | some id => eventsSince id none store.eventContexts

end EventStore

/-- The calls that change a store. -/
inductive StoreCall (Time : Type) where
  | addNewEvent (eventId : EventId Time) (event : Json)
  | clear

namespace EventStore

variable [LinearOrder Time]

def call (store : EventStore Time) : StoreCall Time -> Option (EventStore Time)
  | .addNewEvent eventId event => store.addNewEvent eventId event
  | .clear => some store.clear

/-- Some calls, one after the other.  There is no result if one of them erases from an
empty set. -/
def run (store : EventStore Time) (calls : List (StoreCall Time)) : Option (EventStore Time) :=
  calls.foldlM call store

end EventStore

/-- One more call, for the events that were added since the store was cleared. -/
def addedBy (added : List (EventContext Time)) : StoreCall Time -> List (EventContext Time)
  | .addNewEvent eventId event => added ++ [⟨eventId, event⟩]
  | .clear => []

/-- The events that were added since the store was cleared, in their order of insertion. -/
def addedSinceClear (calls : List (StoreCall Time)) : List (EventContext Time) :=
  calls.foldl addedBy []

/-- The events of the same subscription that follow the event with an id. -/
structure FollowsEvent (contexts : List (EventContext Time)) (redfishEventId : Nat)
    (events : List Json) : Prop where
  found : ∀ before context after, contexts = before ++ context :: after ->
    context.eventId.redfishEventId = redfishEventId ->
    events = (after.filter fun later =>
      later.eventId.subscriptionId = context.eventId.subscriptionId).map EventContext.event
  unknown : (∀ context ∈ contexts, context.eventId.redfishEventId ≠ redfishEventId) -> events = []

/-- A bounded log in chronological order, after some calls. -/
structure IsLog [LinearOrder Time] (calls : List (StoreCall Time)) (store : EventStore Time) :
    Prop where
  bounded : store.eventContexts.length <= store.storeSize
  present : 1 <= store.storeSize -> ∀ before eventId event,
    calls = before ++ [.addNewEvent eventId event] -> ⟨eventId, event⟩ ∈ store.eventContexts
  ordered : 1 <= store.storeSize ->
    store.eventContexts.Pairwise fun earlier later => earlier.timestamp <= later.timestamp
  ties : 1 <= store.storeSize -> ∀ timestamp,
    (store.eventContexts.filter fun context => context.timestamp = timestamp) <:+
      (addedSinceClear calls).filter fun context => context.timestamp = timestamp
  since : 1 <= store.storeSize ->
    (store.eventContexts.map fun context => context.eventId.redfishEventId).Nodup ->
    ∀ id, FollowsEvent store.eventContexts id (store.getEventsSince (some id))

/-- The store is a bounded log after each of the calls, and never erases from an empty
set. -/
def StaysLog [LinearOrder Time] (storeSize : Nat) (calls : List (StoreCall Time)) : Prop :=
  ∀ done, done <+: calls -> ∃ store,
    (EventStore.create storeSize).run done = some store ∧ store.storeSize = storeSize ∧
      IsLog done store

namespace EventStore

lemma eventsSince_passed {id subscription : Nat} {contexts : List (EventContext Time)}
    (passed : ∀ context ∈ contexts, context.eventId.redfishEventId ≠ id) :
    eventsSince id (some subscription) contexts =
      (contexts.filter fun later => later.eventId.subscriptionId = subscription).map
        EventContext.event := by
  induction contexts with
  | nil => rfl
  | cons context rest ih =>
    rw [eventsSince, if_neg (passed context (.head _)),
      ih fun other member => passed other (.tail _ member)]
    by_cases same : context.eventId.subscriptionId = subscription
    · simp [same]
    · simp [same, Ne.symm same]

/-- Nothing is taken before the event is found. -/
lemma eventsSince_searching {id : Nat} {before : List (EventContext Time)}
    (notYet : ∀ context ∈ before, context.eventId.redfishEventId ≠ id)
    (contexts : List (EventContext Time)) :
    eventsSince id none (before ++ contexts) = eventsSince id none contexts := by
  induction before with
  | nil => rfl
  | cons context rest ih =>
    rw [cons_append, eventsSince, if_neg (notYet context (.head _))]
    exact ih fun other member => notYet other (.tail _ member)

variable {store : EventStore Time}

lemma getEventsSince_follows
    (distinct : (store.eventContexts.map fun context => context.eventId.redfishEventId).Nodup)
    (id : Nat) : FollowsEvent store.eventContexts id (store.getEventsSince (some id)) := by
  constructor
  · intro before context after split found
    rw [split, map_append, map_cons, nodup_middle, nodup_cons, found] at distinct
    have notBefore : ∀ other ∈ before, other.eventId.redfishEventId ≠ id := by
      intro other member same
      exact distinct.1 (mem_append_left _ (mem_map.mpr ⟨other, member, same⟩))
    have notAfter : ∀ other ∈ after, other.eventId.redfishEventId ≠ id := by
      intro other member same
      exact distinct.1 (mem_append_right _ (mem_map.mpr ⟨other, member, same⟩))
    rw [getEventsSince, split, eventsSince_searching notBefore, eventsSince, if_pos found,
      if_neg (Option.some_ne_none _).symm, eventsSince_passed notAfter]
  · intro unknown
    have searched := eventsSince_searching unknown []
    rw [append_nil] at searched
    exact searched

variable [LinearOrder Time]

/-- What a store keeps, whatever is called: room for its events and their order. -/
structure Keeps (added : List (EventContext Time)) (store : EventStore Time) : Prop where
  bounded : store.eventContexts.length <= store.storeSize
  ordered : OrderedMultiset.Ordered EventContext.timestamp store.eventContexts
  ties : ∀ timestamp,
    OrderedMultiset.withKey EventContext.timestamp timestamp store.eventContexts <:+
      OrderedMultiset.withKey EventContext.timestamp timestamp added

variable {added : List (EventContext Time)}

section

variable (keeps : Keeps added store) (room : 1 <= store.storeSize)

include keeps room

lemma Keeps.makeRoom :
    ∃ kept, store.makeRoom = some kept ∧ kept.length < store.storeSize ∧
      kept <:+ store.eventContexts := by
  have bounded := keeps.bounded
  unfold EventStore.makeRoom
  by_cases full : store.eventContexts.length = store.storeSize
  · rw [if_pos full]
    cases listed : store.eventContexts with
    | nil =>
      rw [listed, length_nil] at full
      omega
    | cons first rest =>
      rw [listed, length_cons] at full
      exact ⟨rest, rfl, by omega, suffix_cons first rest⟩
  · rw [if_neg full]
    exact ⟨store.eventContexts, rfl, lt_of_le_of_ne bounded full, suffix_rfl⟩

lemma addNewEvent_keeps (eventId : EventId Time) (event : Json) :
    ∃ after, store.addNewEvent eventId event = some after ∧
      after.storeSize = store.storeSize ∧ ⟨eventId, event⟩ ∈ after.eventContexts ∧
      Keeps (added ++ [⟨eventId, event⟩]) after := by
  rcases keeps.makeRoom room with ⟨kept, made, short, isEnd⟩
  have ordered : Ordered EventContext.timestamp kept := keeps.ordered.sublist isEnd.sublist
  rw [addNewEvent, made]
  refine ⟨_, rfl, rfl, ?_, ?_, ?_, ?_⟩
  · exact (mem_insert EventContext.timestamp).mpr (.inl rfl)
  · simp only [OrderedMultiset.length_insert]
    exact short
  · exact OrderedMultiset.ordered_insert EventContext.timestamp _ ordered
  · intro timestamp
    have appended : withKey EventContext.timestamp timestamp
        (added ++ [⟨eventId, event⟩]) =
        withKey EventContext.timestamp timestamp added ++
          withKey EventContext.timestamp timestamp [⟨eventId, event⟩] :=
      filter_append added _
    rw [OrderedMultiset.withKey_insert EventContext.timestamp _ ordered, appended,
      suffix_append_self_iff]
    exact (isEnd.filter _).trans (keeps.ties timestamp)

lemma call_keeps (next : StoreCall Time) :
    ∃ after, store.call next = some after ∧ after.storeSize = store.storeSize ∧
      Keeps (addedBy added next) after := by
  cases next with
  | addNewEvent eventId event =>
    rcases addNewEvent_keeps keeps room eventId event with ⟨after, called, size, -, kept⟩
    exact ⟨after, called, size, kept⟩
  | clear =>
    refine ⟨store.clear, rfl, rfl, Nat.zero_le _, Pairwise.nil, ?_⟩
    exact fun timestamp => nil_suffix

end

lemma run_keeps {storeSize : Nat} (room : 1 <= storeSize) (calls : List (StoreCall Time)) :
    ∃ store, (create storeSize).run calls = some store ∧ store.storeSize = storeSize ∧
      Keeps (addedSinceClear calls) store := by
  induction calls using reverseRecOn with
  | nil =>
    refine ⟨create storeSize, rfl, rfl, Nat.zero_le _, Pairwise.nil, ?_⟩
    exact fun timestamp => nil_suffix
  | append_singleton calls next ih =>
    rcases ih with ⟨store, ran, size, keeps⟩
    rcases call_keeps keeps (size ▸ room) next with ⟨after, called, sameSize, kept⟩
    refine ⟨after, ?_, sameSize.trans size, ?_⟩
    · unfold run at ran ⊢
      rw [foldlM_append, ran]
      simp [called]
    · rw [addedSinceClear, foldl_append]
      exact kept

lemma run_clears (empty : store.eventContexts = []) {calls : List (StoreCall Time)}
    (onlyClears : ∀ call ∈ calls, call = .clear) : store.run calls = some store := by
  induction calls with
  | nil => rfl
  | cons next rest ih =>
    cases onlyClears next (.head _)
    have cleared : store.clear = store := by
      rcases store with ⟨storeSize, contexts⟩
      cases empty
      rfl
    unfold run at ih ⊢
    rw [foldlM_cons]
    simp only [call, cleared]
    exact ih fun other member => onlyClears other (.tail _ member)

end EventStore

/-- The store is a log in chronological order just if it has room, or no event is ever added. -/
theorem eventStore_staysLog_iff [LinearOrder Time] (storeSize : Nat)
    (calls : List (StoreCall Time)) :
    StaysLog storeSize calls ↔ 1 <= storeSize ∨ ∀ call ∈ calls, call = .clear := by
  constructor
  · intro stays
    by_contra escaped
    rcases not_or.mp escaped with ⟨noRoom, someEvent⟩
    have none : storeSize = 0 := by omega
    subst none
    -- The run breaks at the first event that is added.
    have firstEvent : ∃ before eventId event, (∀ call ∈ before, call = .clear) ∧
        before ++ [.addNewEvent eventId event] <+: calls := by
      clear stays escaped noRoom
      induction calls with
      | nil => exact absurd (List.forall_mem_nil _) someEvent
      | cons next rest ih =>
        cases next with
        | addNewEvent eventId event =>
          exact ⟨[], eventId, event, nofun, List.cons_prefix_cons.mpr ⟨rfl, List.nil_prefix⟩⟩
        | clear =>
          have later : ¬ ∀ call ∈ rest, call = .clear := by
            intro onlyClears
            apply someEvent
            intro call member
            rcases List.mem_cons.mp member with rfl | inRest
            · rfl
            · exact onlyClears call inRest
          rcases ih later with ⟨before, eventId, event, onlyClears, isPrefix⟩
          refine ⟨.clear :: before, eventId, event, ?_, List.cons_prefix_cons.mpr ⟨rfl, isPrefix⟩⟩
          intro call member
          rcases List.mem_cons.mp member with rfl | inBefore
          · rfl
          · exact onlyClears call inBefore
    rcases firstEvent with ⟨before, eventId, event, onlyClears, isPrefix⟩
    rcases stays _ isPrefix with ⟨store, ran, -, -⟩
    rw [EventStore.run, List.foldlM_append] at ran
    change ((EventStore.create 0).run before >>= _) = _ at ran
    rw [EventStore.run_clears rfl onlyClears] at ran
    cases ran
  · intro condition done isPrefix
    rcases condition with room | onlyClears
    · rcases EventStore.run_keeps room done with ⟨store, ran, size, keeps⟩
      refine ⟨store, ran, size, keeps.bounded, ?_, fun _ => keeps.ordered,
        fun _ => keeps.ties, fun _ distinct id => EventStore.getEventsSince_follows distinct id⟩
      rintro - before eventId event rfl
      rcases EventStore.run_keeps room before with ⟨earlier, ranEarlier, sizeEarlier, keptEarlier⟩
      rcases EventStore.addNewEvent_keeps keptEarlier (sizeEarlier ▸ room) eventId event with
        ⟨after, added, -, present, -⟩
      rw [EventStore.run, List.foldlM_append] at ran
      change ((EventStore.create storeSize).run before >>= _) = _ at ran
      rw [ranEarlier] at ran
      simp only [List.foldlM_cons, List.foldlM_nil, Option.bind_eq_bind, Option.bind_some,
        EventStore.call, added, Option.pure_def, Option.some.injEq] at ran
      exact ran ▸ present
    · have clears : ∀ call ∈ done, call = .clear :=
        fun call member => onlyClears call (isPrefix.subset member)
      refine ⟨_, EventStore.run_clears rfl clears, rfl, Nat.zero_le _, ?_, ?_, ?_, ?_⟩
      · rintro - before eventId event rfl
        exact nomatch clears (.addNewEvent eventId event) (by simp)
      · exact fun _ => List.Pairwise.nil
      · exact fun _ timestamp => List.nil_suffix
      · exact fun _ distinct id => EventStore.getEventsSince_follows distinct id

end

/-- A store without room erases from the empty set. -/
theorem eventStore_without_room :
    ¬ @StaysLog Int _ 0 [.addNewEvent ⟨⟨text "1", .dbusObjects⟩, 0, 1, 1⟩ .null] := by
  intro stays
  rcases stays _ List.prefix_rfl with ⟨store, ran, -, -⟩
  cases ran

end Ecclesia.Server
