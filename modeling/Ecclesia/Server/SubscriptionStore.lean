import Ecclesia.Server.Notify

namespace Ecclesia.Server

open Absl List Option
open HashMap (lookup_assign lookup_erase lookup_isSome)

/-!
# The store of subscriptions

The subscription service keeps its subscriptions in three maps: the contexts under
their subscription ids, pointers to the contexts under their event sources, and the
event sources under the subscription ids.  The first map owns the contexts.  A pointer
is modelled by an address, and can be followed as long as the context at the address is
owned.  The definitions follow `subscription_store_impl.cc`.
-/

/-! ## The program -/

/-- The address of a context. -/
abbrev Address := Nat

/-- A context whose event sources are the keys of a hash map. -/
structure OwnedContext where
  context : SubscriptionContext
  distinct : (context.eventSourceToUri.map Prod.fst).Nodup

namespace OwnedContext

def subscriptionId (owned : OwnedContext) : Nat := owned.context.subscriptionId

def eventSources (owned : OwnedContext) : List EventSourceId :=
  owned.context.eventSourceToUri.map Prod.fst

lemma nodup_eventSources (owned : OwnedContext) : owned.eventSources.Nodup := owned.distinct

end OwnedContext

/-- `SubscriptionStoreImpl` -/
structure SubscriptionStore where
  subscriptions : HashMap Nat (Address × OwnedContext)
  subscriptionsByEventSources : HashMap EventSourceId (List Address)
  eventSourcesBySubscription : HashMap Nat (List EventSourceId)

namespace SubscriptionStore

def empty : SubscriptionStore := ⟨.empty, .empty, .empty⟩

def deref (store : SubscriptionStore) (address : Address) : Option OwnedContext :=
  (store.subscriptions.entries.find? fun entry => entry.2.1 == address).map fun entry => entry.2.2

/-- One round of the loop over the event sources of a new subscription. -/
def addToEventSource (address : Address) (index : HashMap EventSourceId (List Address))
    (eventSourceId : EventSourceId) : HashMap EventSourceId (List Address) :=
  match index.lookup eventSourceId with
  | none => index.insert eventSourceId [address]
  | some contexts => index.assign eventSourceId (contexts ++ [address])

/-- `AddNewSubscription`, for a pointer to a context or a null pointer. -/
def addNewSubscription (store : SubscriptionStore)
    (subscriptionContext : Option (Address × OwnedContext)) : Status × SubscriptionStore :=
  match subscriptionContext with
  | none => (.invalidArgument (text "Subscription context is null."), store)
  | some (address, owned) =>
    if owned.subscriptionId = 0 then (.invalidArgument (text "Invalid Id, must be >0"), store)
    else if owned.context.eventSourceToUri.isEmpty then
      (.invalidArgument (text "Event source to uri is empty."), store)
    else if (store.subscriptions.lookup owned.subscriptionId).isSome then
      (⟨.alreadyExists, text "Subscription Id " ++ strCatNat owned.subscriptionId ++
        text " already exists."⟩, store)
    else
      (.okStatus,
        ⟨store.subscriptions.insert owned.subscriptionId (address, owned),
          owned.eventSources.foldl (addToEventSource address) store.subscriptionsByEventSources,
          store.eventSourcesBySubscription.insert owned.subscriptionId owned.eventSources⟩)

/-- The loop of `DeleteSubscriptionFromEventSources`: the pointers without the first one to a
context with the id; none if a pointer cannot be followed. -/
def eraseContext (follow : Address -> Option OwnedContext) (subscriptionId : Nat) :
    List Address -> Option (Option (List Address))
  | [] => some none
  | address :: rest =>
    match follow address with
    | none => none
    | some owned =>
      if owned.subscriptionId = subscriptionId then some (some rest)
      else (eraseContext follow subscriptionId rest).map fun erased =>
        erased.map (address :: ·)

/-- `DeleteSubscriptionFromEventSources`.  The access creates an entry if there is none. -/
def deleteSubscriptionFromEventSources (follow : Address -> Option OwnedContext)
    (subscriptionId : Nat) (index : HashMap EventSourceId (List Address))
    (eventSourceId : EventSourceId) : Option (HashMap EventSourceId (List Address)) :=
  let contexts := (index.lookup eventSourceId).getD []
  match eraseContext follow subscriptionId contexts with
  | none => none
  | some none => some (index.assign eventSourceId contexts)
  | some (some []) => some (index.erase eventSourceId)
  | some (some (first :: others)) => some (index.assign eventSourceId (first :: others))

def deleteSubscription (store : SubscriptionStore) (subscriptionId : Nat) :
    Option SubscriptionStore :=
  match store.eventSourcesBySubscription.lookup subscriptionId with
  | none => some { store with subscriptions := store.subscriptions.erase subscriptionId }
  | some eventSourceIds =>
    (eventSourceIds.foldlM (deleteSubscriptionFromEventSources store.deref subscriptionId)
      store.subscriptionsByEventSources).map fun index =>
        ⟨store.subscriptions.erase subscriptionId, index,
          store.eventSourcesBySubscription.erase subscriptionId⟩

end SubscriptionStore

/-- The stores that calls lead to, where a new context is at a free address. -/
inductive StoreReachable : SubscriptionStore -> Prop where
  | empty : StoreReachable .empty
  | addNull {store : SubscriptionStore} (reached : StoreReachable store) :
      StoreReachable (store.addNewSubscription none).2
  | add {store : SubscriptionStore} {address : Address} (reached : StoreReachable store)
      (unused : store.deref address = none) (owned : OwnedContext) :
      StoreReachable (store.addNewSubscription (some (address, owned))).2
  | delete {store after : SubscriptionStore} {subscriptionId : Nat}
      (reached : StoreReachable store)
      (deleted : store.deleteSubscription subscriptionId = some after) : StoreReachable after

/-! ## Consistency -/

namespace SubscriptionStore

def listed (index : HashMap EventSourceId (List Address)) (eventSourceId : EventSourceId) :
    List Address :=
  (index.lookup eventSourceId).getD []

/-- The three maps belong together. -/
structure Consistent (store : SubscriptionStore) : Prop where
  keys : ∀ id, id ∈ store.subscriptions.keys ↔ id ∈ store.eventSourcesBySubscription.keys
  named : ∀ id address owned, store.subscriptions.lookup id = some (address, owned) ->
    owned.subscriptionId = id
  sources : ∀ id address owned, store.subscriptions.lookup id = some (address, owned) ->
    store.eventSourcesBySubscription.lookup id = some owned.eventSources
  apart : ∀ first second address one other,
    store.subscriptions.lookup first = some (address, one) ->
    store.subscriptions.lookup second = some (address, other) -> first = second
  nonempty : ∀ eventSourceId, store.subscriptionsByEventSources.lookup eventSourceId ≠ some []
  once : ∀ eventSourceId, (listed store.subscriptionsByEventSources eventSourceId).Nodup
  exact : ∀ eventSourceId address,
    address ∈ listed store.subscriptionsByEventSources eventSourceId ↔
      ∃ id owned, store.subscriptions.lookup id = some (address, owned) ∧
        eventSourceId ∈ owned.eventSources

lemma consistent_empty : Consistent empty where
  keys _ := .rfl
  named _ _ _ found := nomatch found
  sources _ _ _ found := nomatch found
  apart _ _ _ _ _ found := nomatch found
  nonempty _ := nofun
  once _ := nodup_nil
  exact eventSourceId address := by
    constructor
    · intro member
      cases member
    · rintro ⟨id, owned, found, -⟩
      cases found

variable {store : SubscriptionStore} {address : Address}

lemma Consistent.deref_eq (consistent : Consistent store) {id : Nat} {owned : OwnedContext}
    (found : store.subscriptions.lookup id = some (address, owned)) :
    store.deref address = some owned := by
  have member : (id, address, owned) ∈ store.subscriptions.entries :=
    (lookup_eq_some_iff_mem store.subscriptions.distinct).mp found
  unfold deref
  cases searched : store.subscriptions.entries.find? fun entry => entry.2.1 == address with
  | none =>
    have differs := find?_eq_none.mp searched _ member
    exact absurd (beq_self_eq_true address) differs
  | some entry =>
    rcases entry with ⟨other, place, context⟩
    have atAddress : place = address := by simpa using find?_some searched
    subst atAddress
    have stored : store.subscriptions.lookup other = some (place, context) :=
      (lookup_eq_some_iff_mem store.subscriptions.distinct).mpr (mem_of_find?_eq_some searched)
    cases consistent.apart _ _ _ _ _ found stored
    rw [found] at stored
    cases stored
    rfl

lemma not_lookup_of_unused (unused : store.deref address = none) (id : Nat) (owned : OwnedContext) :
    store.subscriptions.lookup id ≠ some (address, owned) := by
  intro found
  have member : (id, address, owned) ∈ store.subscriptions.entries :=
    (lookup_eq_some_iff_mem store.subscriptions.distinct).mp found
  have searched := map_eq_none_iff.mp unused
  exact absurd (beq_self_eq_true address) (find?_eq_none.mp searched _ member)

/-! ## Adding a subscription -/

lemma lookup_addToEventSource (address : Address) (index : HashMap EventSourceId (List Address))
    (eventSourceId other : EventSourceId) :
    (addToEventSource address index eventSourceId).lookup other =
      if other = eventSourceId then some (listed index other ++ [address])
      else index.lookup other := by
  unfold addToEventSource listed
  cases found : index.lookup eventSourceId with
  | none =>
    simp only [HashMap.insert, found, isSome_none, Bool.false_eq_true, if_false, lookup_assign]
    by_cases same : other = eventSourceId
    · simp [same, found]
    · simp [same]
  | some contexts =>
    simp only [lookup_assign]
    by_cases same : other = eventSourceId
    · simp [same, found]
    · simp [same]

variable {eventSources : List EventSourceId}

lemma lookup_foldl_addToEventSource (address : Address) (distinct : eventSources.Nodup)
    (index : HashMap EventSourceId (List Address)) (other : EventSourceId) :
    (eventSources.foldl (addToEventSource address) index).lookup other =
      if other ∈ eventSources then some (listed index other ++ [address])
      else index.lookup other := by
  induction eventSources generalizing index with
  | nil => simp
  | cons first rest ih =>
    rcases nodup_cons.mp distinct with ⟨fresh, distinctRest⟩
    rw [foldl_cons, ih distinctRest]
    unfold listed
    rw [lookup_addToEventSource]
    by_cases same : other = first
    · subst same
      simp [fresh, listed]
    · simp [same, mem_cons]

lemma lookup_insert_absent {Key Value : Type} [BEq Key] [LawfulBEq Key]
    {map : HashMap Key Value} {key : Key} (absent : (map.lookup key).isSome = false)
    (value : Value) (other : Key) :
    (map.insert key value).lookup other = if other == key then some value else map.lookup other := by
  rw [HashMap.insert, absent, if_neg Bool.false_ne_true, lookup_assign]

lemma Consistent.unlisted (consistent : Consistent store) (unused : store.deref address = none)
    (eventSourceId : EventSourceId) :
    address ∉ listed store.subscriptionsByEventSources eventSourceId := by
  intro member
  rcases (consistent.exact eventSourceId address).mp member with ⟨id, context, found, -⟩
  exact not_lookup_of_unused unused id context found

lemma mem_listed_foldl_addToEventSource {place : Address} (distinct : eventSources.Nodup)
    (index : HashMap EventSourceId (List Address)) (eventSourceId : EventSourceId) :
    place ∈ listed (eventSources.foldl (addToEventSource address) index) eventSourceId ↔
      place ∈ listed index eventSourceId ∨ (place = address ∧ eventSourceId ∈ eventSources) := by
  unfold listed
  rw [lookup_foldl_addToEventSource address distinct index]
  split_ifs with isSource
  · simp [isSource, listed]
  · simp [isSource]

lemma Consistent.insert {store : SubscriptionStore} (consistent : Consistent store)
    {address : Address} (unused : store.deref address = none) {owned : OwnedContext}
    (absent : (store.subscriptions.lookup owned.subscriptionId).isSome = false) :
    Consistent
      ⟨store.subscriptions.insert owned.subscriptionId (address, owned),
        owned.eventSources.foldl (addToEventSource address) store.subscriptionsByEventSources,
        store.eventSourcesBySubscription.insert owned.subscriptionId owned.eventSources⟩ := by
  have absentSources :
      (store.eventSourcesBySubscription.lookup owned.subscriptionId).isSome = false := by
    rw [Bool.eq_false_iff, Ne, lookup_isSome, <- consistent.keys, <- lookup_isSome, absent]
    exact Bool.false_ne_true
  have stored : ∀ id, (store.subscriptions.insert owned.subscriptionId
      (address, owned)).lookup id =
      if id = owned.subscriptionId then some (address, owned)
      else store.subscriptions.lookup id := by
    intro id
    rw [lookup_insert_absent absent]
    simp only [beq_iff_eq]
  have sourcesOf : ∀ id, (store.eventSourcesBySubscription.insert owned.subscriptionId
      owned.eventSources).lookup id =
      if id = owned.subscriptionId then some owned.eventSources
      else store.eventSourcesBySubscription.lookup id := by
    intro id
    rw [lookup_insert_absent absentSources]
    simp only [beq_iff_eq]
  have indexed := lookup_foldl_addToEventSource address owned.nodup_eventSources
    store.subscriptionsByEventSources
  refine ⟨?_, ?_, ?_, ?_, ?_, ?_, ?_⟩
  · intro id
    rw [<- lookup_isSome, <- lookup_isSome, stored, sourcesOf]
    by_cases isNew : id = owned.subscriptionId
    · simp [isNew]
    · rw [if_neg isNew, if_neg isNew, lookup_isSome, lookup_isSome]
      exact consistent.keys id
  · intro id place context found
    rw [stored] at found
    split_ifs at found with isNew
    · cases found
      exact isNew.symm
    · exact consistent.named id place context found
  · intro id place context found
    rw [stored] at found
    rw [sourcesOf]
    split_ifs at found with isNew
    · cases found
      rw [if_pos isNew]
    · rw [if_neg isNew]
      exact consistent.sources id place context found
  · intro first second place one other foundFirst foundSecond
    rw [stored] at foundFirst foundSecond
    split_ifs at foundFirst foundSecond with firstNew secondNew secondNew
    · rw [firstNew, secondNew]
    · cases foundFirst
      exact absurd foundSecond (not_lookup_of_unused unused second other)
    · cases foundSecond
      exact absurd foundFirst (not_lookup_of_unused unused first one)
    · exact consistent.apart first second place one other foundFirst foundSecond
  · intro eventSourceId
    rw [indexed]
    split_ifs with isSource
    · simp
    · exact consistent.nonempty eventSourceId
  · intro eventSourceId
    have absentHere := consistent.unlisted unused eventSourceId
    simp only [listed] at absentHere ⊢
    rw [indexed]
    split_ifs with isSource
    · rw [<- concat_eq_append]
      exact (consistent.once eventSourceId).concat absentHere
    · exact consistent.once eventSourceId
  · intro eventSourceId place
    rw [mem_listed_foldl_addToEventSource owned.nodup_eventSources, consistent.exact]
    constructor
    · rintro (⟨id, context, found, isSource⟩ | ⟨rfl, isSource⟩)
      · refine ⟨id, context, ?_, isSource⟩
        have other : id ≠ owned.subscriptionId := by
          rintro rfl
          rw [found] at absent
          cases absent
        rw [stored, if_neg other]
        exact found
      · exact ⟨owned.subscriptionId, owned, by rw [stored, if_pos rfl], isSource⟩
    · rintro ⟨id, context, found, isSource⟩
      rw [stored] at found
      split_ifs at found with isNew
      · cases found
        exact .inr ⟨rfl, isSource⟩
      · exact .inl ⟨id, context, found, isSource⟩

/-! ## Deleting a subscription -/

variable {follow : Address -> Option OwnedContext} {subscriptionId : Nat}

lemma eraseContext_eq {contexts : List Address} (member : address ∈ contexts)
    (followed : ∀ place ∈ contexts, ∃ owned, follow place = some owned ∧
      (owned.subscriptionId = subscriptionId ↔ place = address)) :
    eraseContext follow subscriptionId contexts = some (some (contexts.erase address)) := by
  induction contexts with
  | nil => cases member
  | cons first rest ih =>
    rcases followed first (.head _) with ⟨owned, found, isIt⟩
    rw [eraseContext, found]
    simp only
    by_cases same : first = address
    · rw [if_pos (isIt.mpr same), same, erase_cons_head]
    · rw [if_neg fun named => same (isIt.mp named),
        ih (mem_of_ne_of_mem (.symm same) member)
          fun place inRest => followed place (.tail _ inRest),
        erase_cons_tail (by simpa using same)]
      rfl

/-- The entry of an event source after a pointer has been erased. -/
def withoutAddress (address : Address) (contexts : List Address) : Option (List Address) :=
  match contexts.erase address with
  | [] => none
  | first :: others => some (first :: others)

lemma getD_withoutAddress (address : Address) (contexts : List Address) :
    (withoutAddress address contexts).getD [] = contexts.erase address := by
  unfold withoutAddress
  cases contexts.erase address with
  | nil => rfl
  | cons first others => rfl

variable {index : HashMap EventSourceId (List Address)}

lemma deleteSubscriptionFromEventSources_eq
    {eventSourceId : EventSourceId} (member : address ∈ listed index eventSourceId)
    (followed : ∀ place ∈ listed index eventSourceId, ∃ owned,
      follow place = some owned ∧ (owned.subscriptionId = subscriptionId ↔ place = address)) :
    ∃ after,
      deleteSubscriptionFromEventSources follow subscriptionId index eventSourceId = some after ∧
      ∀ other, after.lookup other =
        if other = eventSourceId then withoutAddress address (listed index eventSourceId)
        else index.lookup other := by
  have erased := eraseContext_eq member followed
  unfold deleteSubscriptionFromEventSources withoutAddress
  simp only [listed] at erased ⊢
  rw [erased]
  cases left : ((index.lookup eventSourceId).getD []).erase address with
  | nil =>
    refine ⟨_, rfl, ?_⟩
    intro other
    rw [lookup_erase]
    simp
  | cons first others =>
    refine ⟨_, rfl, ?_⟩
    intro other
    rw [lookup_assign]
    simp

lemma foldlM_deleteSubscription (distinct : eventSources.Nodup)
    (members : ∀ source ∈ eventSources, address ∈ listed index source)
    (followed : ∀ source ∈ eventSources, ∀ place ∈ listed index source, ∃ owned, follow place = some owned ∧
        (owned.subscriptionId = subscriptionId ↔ place = address)) :
    ∃ after,
      eventSources.foldlM (deleteSubscriptionFromEventSources follow subscriptionId) index =
        some after ∧
      ∀ other, after.lookup other =
        if other ∈ eventSources then withoutAddress address (listed index other)
        else index.lookup other := by
  induction eventSources generalizing index with
  | nil => exact ⟨index, rfl, fun other => by simp⟩
  | cons first rest ih =>
    rcases nodup_cons.mp distinct with ⟨fresh, distinctRest⟩
    rcases deleteSubscriptionFromEventSources_eq (members first (.head _))
      (followed first (.head _)) with ⟨between, deleted, found⟩
    have unchanged : ∀ source ∈ rest, listed between source = listed index source := by
      intro source member
      have other : source ≠ first := fun same => fresh (same ▸ member)
      rw [listed, found, if_neg other, listed]
    have laterMembers : ∀ source ∈ rest, address ∈ listed between source := by
      intro source member
      rw [unchanged source member]
      exact members source (.tail _ member)
    have laterFollowed : ∀ source ∈ rest, ∀ place ∈ listed between source,
        ∃ owned, follow place = some owned ∧
          (owned.subscriptionId = subscriptionId ↔ place = address) := by
      intro source member place inside
      rw [unchanged source member] at inside
      exact followed source (.tail _ member) place inside
    rcases ih distinctRest laterMembers laterFollowed with ⟨after, looped, reads⟩
    refine ⟨after, ?_, ?_⟩
    · rw [foldlM_cons, deleted]
      exact looped
    · intro other
      rw [reads]
      by_cases inRest : other ∈ rest
      · rw [if_pos inRest, if_pos (.tail _ inRest), unchanged other inRest]
      · rw [if_neg inRest, found]
        by_cases same : other = first
        · rw [if_pos same, if_pos (same ▸ (.head _)), same]
        · have notListed : other ∉ first :: rest := by
            intro member
            rcases mem_cons.mp member with isFirst | later
            · exact same isFirst
            · exact inRest later
          rw [if_neg same, if_neg notListed]

lemma Consistent.delete_unknown (consistent : Consistent store)
    (unknown : subscriptionId ∉ store.subscriptions.keys) :
    store.deleteSubscription subscriptionId = some store := by
  have absent : store.subscriptions.lookup subscriptionId = none := by
    rw [<- not_isSome_iff_eq_none, lookup_isSome]
    exact unknown
  have absentSources : store.eventSourcesBySubscription.lookup subscriptionId = none := by
    rw [<- not_isSome_iff_eq_none, lookup_isSome, <- consistent.keys]
    exact unknown
  rw [deleteSubscription, absentSources]
  simp only [HashMap.erase_of_absent absent]

section

variable {store : SubscriptionStore} (consistent : Consistent store)
  {subscriptionId : Nat} {address : Address} {owned : OwnedContext}
  (known : store.subscriptions.lookup subscriptionId = some (address, owned))

include consistent known

/-- Every pointer that the deletion follows leads to a context, and only one to the subscription. -/
lemma Consistent.followed {eventSourceId : EventSourceId} {place : Address}
    (inside : place ∈ listed store.subscriptionsByEventSources eventSourceId) :
    ∃ context, store.deref place = some context ∧
      (context.subscriptionId = subscriptionId ↔ place = address) := by
  rcases (consistent.exact eventSourceId place).mp inside with ⟨id, context, found, -⟩
  refine ⟨context, consistent.deref_eq found, ?_⟩
  rw [consistent.named _ _ _ found]
  constructor
  · rintro rfl
    rw [known] at found
    cases found
    rfl
  · rintro rfl
    exact consistent.apart _ _ _ _ _ found known

lemma Consistent.listed_iff (eventSourceId : EventSourceId) :
    address ∈ listed store.subscriptionsByEventSources eventSourceId ↔
      eventSourceId ∈ owned.eventSources := by
  constructor
  · intro inside
    rcases (consistent.exact eventSourceId address).mp inside with ⟨id, context, found, hasSource⟩
    cases consistent.apart _ _ _ _ _ found known
    rw [known] at found
    cases found
    exact hasSource
  · intro isSource
    exact (consistent.exact eventSourceId address).mpr ⟨subscriptionId, owned, known, isSource⟩

/-- The entries that remain are those at another address. -/
lemma Consistent.lookup_erase_iff {id : Nat} {place : Address} {context : OwnedContext} :
    (store.subscriptions.erase subscriptionId).lookup id = some (place, context) ↔
      place ≠ address ∧ store.subscriptions.lookup id = some (place, context) := by
  rw [lookup_erase]
  simp only [beq_iff_eq]
  split_ifs with isDeleted
  · subst isDeleted
    refine ⟨nofun, ?_⟩
    rintro ⟨differs, found⟩
    rw [known] at found
    cases found
    exact absurd rfl differs
  · refine ⟨fun found => ⟨?_, found⟩, And.right⟩
    rintro rfl
    exact isDeleted (consistent.apart _ _ _ _ _ found known)

lemma Consistent.remaining_iff (eventSourceId : EventSourceId) (place : Address) :
    (∃ id context, (store.subscriptions.erase subscriptionId).lookup id =
      some (place, context) ∧ eventSourceId ∈ context.eventSources) ↔
      place ≠ address ∧ place ∈ listed store.subscriptionsByEventSources eventSourceId := by
  rw [consistent.exact]
  simp only [consistent.lookup_erase_iff known]
  constructor
  · rintro ⟨id, context, ⟨differs, found⟩, isSource⟩
    exact ⟨differs, id, context, found, isSource⟩
  · rintro ⟨differs, id, context, found, isSource⟩
    exact ⟨id, context, ⟨differs, found⟩, isSource⟩

lemma Consistent.without {index : HashMap EventSourceId (List Address)}
    (reads : ∀ eventSourceId, index.lookup eventSourceId =
      if eventSourceId ∈ owned.eventSources then
        withoutAddress address (listed store.subscriptionsByEventSources eventSourceId)
      else store.subscriptionsByEventSources.lookup eventSourceId) :
    Consistent ⟨store.subscriptions.erase subscriptionId, index,
      store.eventSourcesBySubscription.erase subscriptionId⟩ := by
  have sourcesOf : ∀ id, (store.eventSourcesBySubscription.erase subscriptionId).lookup id =
      if id = subscriptionId then none else store.eventSourcesBySubscription.lookup id := by
    intro id
    rw [lookup_erase]
    simp only [beq_iff_eq]
  have left : ∀ source, listed index source =
      if source ∈ owned.eventSources then
        (listed store.subscriptionsByEventSources source).erase address
      else listed store.subscriptionsByEventSources source := by
    intro source
    rw [listed, reads]
    split_ifs with isSource
    · exact getD_withoutAddress _ _
    · rfl
  refine ⟨?_, ?_, ?_, ?_, ?_, ?_, ?_⟩
  · intro id
    rw [<- lookup_isSome, <- lookup_isSome, lookup_erase, sourcesOf]
    by_cases isDeleted : id = subscriptionId
    · simp [isDeleted]
    · rw [if_neg (by simpa using isDeleted), if_neg isDeleted, lookup_isSome,
        lookup_isSome]
      exact consistent.keys id
  · intro id place context found
    exact consistent.named id place context ((consistent.lookup_erase_iff known).mp found).2
  · intro id place context found
    have before := ((consistent.lookup_erase_iff known).mp found)
    have isOther : id ≠ subscriptionId := by
      rintro rfl
      rw [known] at before
      cases before.2
      exact before.1 rfl
    rw [sourcesOf, if_neg isOther]
    exact consistent.sources id place context before.2
  · intro first second place one other foundFirst foundSecond
    exact consistent.apart first second place one other
      ((consistent.lookup_erase_iff known).mp foundFirst).2
      ((consistent.lookup_erase_iff known).mp foundSecond).2
  · intro source
    rw [reads]
    split_ifs with isSource
    · unfold withoutAddress
      cases (listed store.subscriptionsByEventSources source).erase address with
      | nil => simp
      | cons first others => simp
    · exact consistent.nonempty source
  · intro source
    rw [left]
    split_ifs with isSource
    · exact (consistent.once source).erase address
    · exact consistent.once source
  · intro source place
    rw [consistent.remaining_iff known, left]
    split_ifs with isSource
    · exact (consistent.once source).mem_erase_iff
    · refine ⟨fun inside => ⟨?_, inside⟩, And.right⟩
      rintro rfl
      exact isSource ((consistent.listed_iff known source).mp inside)

lemma Consistent.delete_known :
    ∃ after, store.deleteSubscription subscriptionId = some after ∧ Consistent after := by
  rcases foldlM_deleteSubscription owned.nodup_eventSources
    (fun source isSource => (consistent.listed_iff known source).mpr isSource)
    (fun source _ place inside => consistent.followed known inside) with ⟨index, looped, reads⟩
  refine ⟨_, ?_, consistent.without known reads⟩
  rw [deleteSubscription, consistent.sources _ _ _ known]
  simp only [looped]
  rfl

end

lemma Consistent.delete {store : SubscriptionStore} (consistent : Consistent store)
    (subscriptionId : Nat) :
    ∃ after, store.deleteSubscription subscriptionId = some after ∧ Consistent after := by
  cases known : store.subscriptions.lookup subscriptionId with
  | none =>
    refine ⟨store, consistent.delete_unknown ?_, consistent⟩
    rw [<- lookup_isSome, known]
    exact Bool.false_ne_true
  | some entry =>
    rcases entry with ⟨address, owned⟩
    exact consistent.delete_known known

/-- What `AddNewSubscription` does: it fails and leaves the store, or takes a new id. -/
lemma addNewSubscription_cases (store : SubscriptionStore) (address : Address)
    (owned : OwnedContext) :
    ((store.addNewSubscription (some (address, owned))).1.isOk = false ∧
      (store.addNewSubscription (some (address, owned))).2 = store) ∨
    ((store.addNewSubscription (some (address, owned))).1 = .okStatus ∧
      (store.subscriptions.lookup owned.subscriptionId).isSome = false ∧
      (store.addNewSubscription (some (address, owned))).2 =
        ⟨store.subscriptions.insert owned.subscriptionId (address, owned),
          owned.eventSources.foldl (addToEventSource address) store.subscriptionsByEventSources,
          store.eventSourcesBySubscription.insert owned.subscriptionId owned.eventSources⟩) := by
  unfold addNewSubscription
  simp only
  split_ifs with zero noSources present
  · exact .inl ⟨rfl, rfl⟩
  · exact .inl ⟨rfl, rfl⟩
  · exact .inl ⟨rfl, rfl⟩
  · exact .inr ⟨rfl, Bool.eq_false_iff.mpr present, rfl⟩

lemma StoreReachable.consistent (reached : StoreReachable store) : Consistent store := by
  induction reached with
  | empty => exact consistent_empty
  | addNull reached ih => exact ih
  | @add store address reached unused owned ih =>
    rcases store.addNewSubscription_cases address owned with ⟨-, same⟩ | ⟨-, absent, added⟩
    · rw [same]
      exact ih
    · rw [added]
      exact ih.insert unused absent
  | @delete store after subscriptionId reached deleted ih =>
    rcases ih.delete subscriptionId with ⟨result, same, consistent⟩
    rw [deleted] at same
    cases same
    exact consistent

/-- After any calls the maps belong together, no call has followed a dangling pointer, and a failed
call changes nothing. -/
theorem subscriptionStore_stays_consistent {store : SubscriptionStore}
    (reached : StoreReachable store) :
    Consistent store ∧
    (∀ subscription, (store.addNewSubscription subscription).1.isOk = false ->
      (store.addNewSubscription subscription).2 = store) ∧
    ∀ subscriptionId, ∃ after,
      store.deleteSubscription subscriptionId = some after ∧
        (subscriptionId ∉ store.subscriptions.keys -> after = store) := by
  have consistent := StoreReachable.consistent reached
  refine ⟨consistent, ?_, ?_⟩
  · rintro (_ | ⟨address, owned⟩) failed
    · rfl
    · rcases store.addNewSubscription_cases address owned with ⟨-, same⟩ | ⟨ok, -, -⟩
      · exact same
      · rw [ok] at failed
        cases failed
  · intro subscriptionId
    rcases consistent.delete subscriptionId with ⟨after, deleted, -⟩
    refine ⟨after, deleted, ?_⟩
    intro unknown
    rw [consistent.delete_unknown unknown] at deleted
    cases deleted
    rfl

/-- A subscription to one resource of one event source. -/
def singleContext : OwnedContext where
  context := ⟨7, [(⟨text "1", .dbusObjects⟩, ⟨[text "/redfish/v1/Chassis"], by decide⟩)]⟩
  distinct := by decide

theorem subscriptionStore_stays_consistent_single :
    Consistent (empty.addNewSubscription (some (1, singleContext))).2 ∧
    listed (empty.addNewSubscription (some (1, singleContext))).2.subscriptionsByEventSources
      ⟨text "1", .dbusObjects⟩ = [1] :=
  ⟨(subscriptionStore_stays_consistent (.add .empty rfl singleContext)).1, by decide⟩

end SubscriptionStore

end Ecclesia.Server
