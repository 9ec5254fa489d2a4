import Ecclesia.Library.Assoc
import Ecclesia.Json.Value

namespace Ecclesia.Server

open List

/-!
# Notifications of the subscription service

When an event source notifies the subscription service, every subscription of
the source has its resources queried.  The answers arrive one by one, in any
order, and those of one subscription between those of another.  Each
subscription aggregates its own answers, and hands them to a callback that
builds the event.  The definitions follow `subscription_impl.cc`.
-/

/-- `EventSourceId::Type` -/
inductive EventSourceType where
  | dbusObjects
  | socketIo
  | fileIo
deriving DecidableEq

structure EventSourceId where
  key : Text
  type : EventSourceType
deriving DecidableEq

/-- `SubscriptionContext`, as far as a notification reads it. -/
structure SubscriptionContext where
  subscriptionId : Nat
  eventSourceToUri : List (EventSourceId × HashSet Text)

/-- A subscription that the store returns for an event source, with a set of URIs for it. -/
structure NotifiedContext (eventSourceId : EventSourceId) where
  subscriptionContext : SubscriptionContext
  urisToQuery : HashSet Text
  expected : subscriptionContext.eventSourceToUri.lookup eventSourceId = some urisToQuery

structure AggregatedQueryResponse where
  responsesPending : HashSet Text
  uriToResponse : List (Text × Json)

namespace AggregatedQueryResponse

/-- The constructor. -/
def create (uniqueResourcesToQuery : HashSet Text) : AggregatedQueryResponse :=
  ⟨uniqueResourcesToQuery, []⟩

/-- `AddQueryResponse`, with the argument of the done callback if it is called. -/
def addQueryResponse (aggregated : AggregatedQueryResponse) (uri : Text) (status : Status)
    (queryResponse : Json) : AggregatedQueryResponse × Option (List (Text × Json)) :=
  if uri ∈ aggregated.responsesPending.elements then
    let pending := aggregated.responsesPending.erase uri
    if status.isOk then
      let responses := insertOrAssign uri queryResponse aggregated.uriToResponse
      (⟨pending, responses⟩, if pending.elements.isEmpty then some responses else none)
    else (⟨pending, aggregated.uriToResponse⟩, none)
  else (aggregated, none)

end AggregatedQueryResponse

/-- A query that `Notify` sends: the position of the subscription, and the URI. -/
abbrev SentQuery := Nat × Text

section

variable {eventSourceId : EventSourceId}

/-- `Notify` creates an aggregated response for every subscription. -/
def aggregatedResponses (contexts : List (NotifiedContext eventSourceId)) :
    List AggregatedQueryResponse :=
  contexts.map fun notified => .create notified.urisToQuery

/-- The queries that `Notify` sends, when the backend takes all of them. -/
def sentQueries (contexts : List (NotifiedContext eventSourceId)) : List SentQuery :=
  contexts.zipIdx.flatMap fun entry => entry.1.urisToQuery.elements.map (entry.2, ·)

end

/-- The callback of a query: the answer goes to the aggregated response of its
subscription. -/
def answer (outcome : SentQuery -> Status × Json) (query : SentQuery)
    (aggregated : List AggregatedQueryResponse) :
    List AggregatedQueryResponse × Option (Nat × List (Text × Json)) :=
  match aggregated[query.1]? with
  | none => (aggregated, none)
  | some current =>
    let result := current.addQueryResponse query.2 (outcome query).1 (outcome query).2
    (aggregated.set query.1 result.1, result.2.map (query.1, ·))

/-- The answers of the queries in their order of arrival, with the calls of done callbacks. -/
def answers (outcome : SentQuery -> Status × Json) :
    List SentQuery -> List AggregatedQueryResponse ->
      List AggregatedQueryResponse × List (Nat × List (Text × Json))
  | [], aggregated => (aggregated, [])
  | query :: rest, aggregated =>
    let answered := answer outcome query aggregated
    let later := answers outcome rest answered.1
    (later.1, answered.2.toList ++ later.2)

namespace AggregatedQueryResponse

variable {outcome : Text -> Status × Json}

/-- The answers of one subscription, in their order of arrival. -/
def addAll (outcome : Text -> Status × Json) :
    List Text -> AggregatedQueryResponse -> AggregatedQueryResponse × List (List (Text × Json))
  | [], aggregated => (aggregated, [])
  | uri :: rest, aggregated =>
    let added := aggregated.addQueryResponse uri (outcome uri).1 (outcome uri).2
    let later := addAll outcome rest added.1
    (later.1, added.2.toList ++ later.2)

lemma addAll_append (before after : List Text) (aggregated : AggregatedQueryResponse) :
    addAll outcome (before ++ after) aggregated =
      ((addAll outcome after (addAll outcome before aggregated).1).1,
        (addAll outcome before aggregated).2 ++
          (addAll outcome after (addAll outcome before aggregated).1).2) := by
  induction before generalizing aggregated with
  | nil => rfl
  | cons uri rest ih =>
    rw [cons_append, addAll, ih]
    simp only [addAll, append_assoc]

variable {aggregated : AggregatedQueryResponse}

/-- What an expected answer does. -/
lemma addQueryResponse_pending {uri : Text} (pending : uri ∈ aggregated.responsesPending.elements)
    (status : Status) (body : Json) :
    (aggregated.addQueryResponse uri status body).1.responsesPending =
        aggregated.responsesPending.erase uri ∧
      (aggregated.addQueryResponse uri status body).1.uriToResponse =
        (if status.isOk then insertOrAssign uri body aggregated.uriToResponse
        else aggregated.uriToResponse) ∧
      (aggregated.addQueryResponse uri status body).2 =
        (if status.isOk ∧ (aggregated.responsesPending.erase uri).elements = [] then
          some (aggregated.addQueryResponse uri status body).1.uriToResponse
        else none) := by
  unfold addQueryResponse
  rw [if_pos pending]
  by_cases fine : status.isOk = true
  · simp [fine]
  · simp [fine]

section

variable {order : List Text} (once : order.Nodup)
  (expected : ∀ uri ∈ order, uri ∈ aggregated.responsesPending.elements)

include once expected

/-- The state after some answers, all of them expected: what is pending, and what
has been collected. -/
lemma addAll_state :
    (∀ uri, uri ∈ (addAll outcome order aggregated).1.responsesPending.elements ↔
        uri ∈ aggregated.responsesPending.elements ∧ uri ∉ order) ∧
      ∀ uri, (addAll outcome order aggregated).1.uriToResponse.lookup uri =
        if uri ∈ order ∧ (outcome uri).1.isOk then some (outcome uri).2
        else aggregated.uriToResponse.lookup uri := by
  induction order generalizing aggregated with
  | nil => simp [addAll]
  | cons first rest ih =>
    rcases nodup_cons.mp once with ⟨fresh, once⟩
    rcases addQueryResponse_pending (expected first (.head _)) (outcome first).1
      (outcome first).2 with ⟨pending, collected, -⟩
    have inPending : ∀ uri, uri ∈ (aggregated.addQueryResponse first (outcome first).1
        (outcome first).2).1.responsesPending.elements ↔
          uri ≠ first ∧ uri ∈ aggregated.responsesPending.elements := by
      intro uri
      rw [pending]
      exact HashSet.mem_erase
    have later : ∀ uri ∈ rest, uri ∈ (aggregated.addQueryResponse first
        (outcome first).1 (outcome first).2).1.responsesPending.elements := by
      intro uri member
      refine (inPending uri).mpr ⟨?_, expected uri (.tail _ member)⟩
      exact fun same => fresh (same ▸ member)
    rcases ih once later with ⟨stillPending, found⟩
    rw [addAll]
    refine ⟨?_, ?_⟩
    · intro uri
      rw [stillPending, inPending, mem_cons]
      tauto
    · intro uri
      rw [found, collected]
      by_cases same : uri = first
      · subst same
        by_cases fine : (outcome uri).1.isOk = true
        · simp [fine, fresh, lookup_insertOrAssign]
        · simp [fine]
      · by_cases fine : (outcome first).1.isOk = true
        · simp [fine, same, lookup_insertOrAssign]
        · simp [fine, same]

/-- The callback is not called as long as an answer is pending. -/
lemma addAll_quiet {missing : Text} (pending : missing ∈ aggregated.responsesPending.elements)
    (unanswered : missing ∉ order) : (addAll outcome order aggregated).2 = [] := by
  induction order generalizing aggregated with
  | nil => rfl
  | cons first rest ih =>
    rcases nodup_cons.mp once with ⟨fresh, once⟩
    rcases ne_and_not_mem_of_not_mem_cons unanswered with ⟨differs, unanswered⟩
    rcases addQueryResponse_pending (expected first (.head _)) (outcome first).1
      (outcome first).2 with ⟨left, -, called⟩
    have remains : ∀ uri, uri ≠ first -> uri ∈ aggregated.responsesPending.elements ->
        uri ∈ (aggregated.responsesPending.erase first).elements := by
      intro uri other member
      exact HashSet.mem_erase.mpr ⟨other, member⟩
    have notCalled : (aggregated.addQueryResponse first (outcome first).1
        (outcome first).2).2 = none := by
      rw [called, if_neg]
      rintro ⟨-, empty⟩
      have member := remains missing differs pending
      rw [empty] at member
      exact nomatch member
    rw [addAll, notCalled]
    refine ih once ?_ ?_ unanswered
    · intro uri member
      rw [left]
      exact remains uri (fun same => fresh (same ▸ member)) (expected uri (.tail _ member))
    · rw [left]
      exact remains missing differs pending

end

/-- Once every answer has arrived, the callback has been called if the last was a success. -/
lemma addAll_complete {before : List Text} {last : Text} {uris : HashSet Text}
    (all : (before ++ [last]).Perm uris.elements) :
    (addAll outcome (before ++ [last]) (create uris)).2 =
      if (outcome last).1.isOk then
        [(addAll outcome (before ++ [last]) (create uris)).1.uriToResponse]
      else [] := by
  have once : (before ++ [last]).Nodup := all.nodup_iff.mpr uris.distinct
  rcases nodup_append'.mp once with ⟨onceBefore, -, apart⟩
  have unanswered : last ∉ before := fun member => apart member (.head _)
  have expected : ∀ uri ∈ before, uri ∈ (create uris).responsesPending.elements :=
    fun uri member => all.subset (mem_append_left _ member)
  have pending : last ∈ (create uris).responsesPending.elements :=
    all.subset (mem_append_right _ (.head _))
  rcases addAll_state onceBefore expected with ⟨left, -⟩
  have stillPending : last ∈ (addAll outcome before (create uris)).1.responsesPending.elements :=
    (left last).mpr ⟨pending, unanswered⟩
  have emptied : ((addAll outcome before (create uris)).1.responsesPending.erase last).elements =
      [] := by
    apply eq_nil_iff_forall_not_mem.mpr
    intro uri member
    rcases HashSet.mem_erase.mp member with ⟨differs, member⟩
    rcases (left uri).mp member with ⟨known, notBefore⟩
    rcases mem_append.mp (all.symm.subset known) with found | found
    · exact notBefore found
    · exact differs (mem_singleton.mp found)
  rcases addQueryResponse_pending stillPending (outcome last).1 (outcome last).2 with ⟨-, -, called⟩
  rw [addAll_append, addAll_quiet onceBefore expected pending unanswered]
  simp only [addAll, called, emptied]
  by_cases fine : (outcome last).1.isOk = true
  · simp [fine]
  · simp [fine]

end AggregatedQueryResponse

/-- The part of a list that belongs to one subscription. -/
def shareOf {Entry : Type} (subscription : Nat) (entries : List (Nat × Entry)) : List Entry :=
  (entries.filter (·.1 == subscription)).map Prod.snd

section

variable {outcome : SentQuery -> Status × Json} {eventSourceId : EventSourceId}

variable {Entry : Type}

lemma shareOf_cons_self (subscription : Nat) (entry : Entry) (rest : List (Nat × Entry)) :
    shareOf subscription ((subscription, entry) :: rest) = entry :: shareOf subscription rest := by
  simp [shareOf]

variable {subscription : Nat}

lemma shareOf_cons_other {other : Nat} (differs : other ≠ subscription) (entry : Entry)
    (rest : List (Nat × Entry)) :
    shareOf subscription ((other, entry) :: rest) = shareOf subscription rest := by
  simp [shareOf, differs]

lemma shareOf_append (subscription : Nat) (before after : List (Nat × Entry)) :
    shareOf subscription (before ++ after) =
      shareOf subscription before ++ shareOf subscription after := by
  simp [shareOf]

variable {entries : List (Nat × Entry)}

lemma mem_shareOf {entry : Entry} :
    entry ∈ shareOf subscription entries ↔ (subscription, entry) ∈ entries := by
  simp [shareOf]

lemma answers_shareOf (arrivals : List SentQuery) {aggregated : List AggregatedQueryResponse}
    {current : AggregatedQueryResponse} (present : aggregated[subscription]? = some current) :
    shareOf subscription (answers outcome arrivals aggregated).2 =
      (current.addAll (fun uri => outcome (subscription, uri))
        (shareOf subscription arrivals)).2 := by
  induction arrivals generalizing aggregated current with
  | nil => rfl
  | cons query rest ih =>
    rcases query with ⟨asked, uri⟩
    rw [answers, answer]
    by_cases same : asked = subscription
    · subst same
      have after : (aggregated.set asked (current.addQueryResponse uri (outcome (asked, uri)).1
          (outcome (asked, uri)).2).1)[asked]? =
            some (current.addQueryResponse uri (outcome (asked, uri)).1
              (outcome (asked, uri)).2).1 := by
        rcases List.getElem?_eq_some_iff.mp present with ⟨bound, -⟩
        rw [getElem?_set_self bound]
      simp only [present, shareOf_append, ih after, shareOf_cons_self]
      congr 1
      cases (current.addQueryResponse uri (outcome (asked, uri)).1 (outcome (asked, uri)).2).2 with
      | none => rfl
      | some responses => exact shareOf_cons_self asked responses []
    · rw [shareOf_cons_other same]
      cases found : aggregated[asked]? with
      | none =>
        exact ih present
      | some other =>
        have after : (aggregated.set asked (other.addQueryResponse uri (outcome (asked, uri)).1
            (outcome (asked, uri)).2).1)[subscription]? = some current := by
          rw [getElem?_set_ne same]
          exact present
        simp only [shareOf_append, ih after]
        cases (other.addQueryResponse uri (outcome (asked, uri)).1 (outcome (asked, uri)).2).2 with
        | none => rfl
        | some responses =>
          rw [Option.map_some, Option.toList_some, shareOf_cons_other same]
          rfl

variable (contexts : List (NotifiedContext eventSourceId)) (outcome)

def doneCallbacks (arrivals : List SentQuery) (subscription : Nat) : List (List (Text × Json)) :=
  shareOf subscription (answers outcome arrivals (aggregatedResponses contexts)).2

/-- In every order of the answers, a subscription's callback is called equally often, with the same
maps. -/
def OrderIndependent (subscription : Nat) : Prop :=
  ∀ first second : List SentQuery, first.Perm (sentQueries contexts) ->
    second.Perm (sentQueries contexts) ->
      List.Forall₂ SameMap (doneCallbacks outcome contexts first subscription)
        (doneCallbacks outcome contexts second subscription)

/-- The map holds the successful responses of a subscription, and nothing else. -/
def HoldsSuccesses (subscription : Nat) (uris : HashSet Text) (responses : List (Text × Json)) :
    Prop :=
  ∀ uri body, responses.lookup uri = some body ↔ uri ∈ uris.elements ∧
    (outcome (subscription, uri)).1.isOk = true ∧ (outcome (subscription, uri)).2 = body

/-- In every order of the answers, a subscription's callback is called once, with the successful
ones and after the last one. -/
def FiresAtTheEnd (subscription : Nat) (uris : HashSet Text) : Prop :=
  ∀ arrivals : List SentQuery, arrivals.Perm (sentQueries contexts) ->
    (∃ responses, doneCallbacks outcome contexts arrivals subscription = [responses] ∧
      HoldsSuccesses outcome subscription uris responses) ∧
    ∀ before after, arrivals = before ++ after ->
      (∃ uri, (subscription, uri) ∈ after) ->
        doneCallbacks outcome contexts before subscription = []

variable {contexts}

lemma shareOf_map_self (subscription : Nat) (entries : List Entry) :
    shareOf subscription (entries.map (subscription, ·)) = entries := by
  induction entries with
  | nil => rfl
  | cons entry rest ih => rw [map_cons, shareOf_cons_self, ih]

lemma shareOf_eq_nil (foreign : ∀ entry ∈ entries, entry.1 ≠ subscription) :
    shareOf subscription entries = [] := by
  have none : entries.filter (·.1 == subscription) = [] := by
    apply filter_eq_nil_iff.mpr
    intro entry member same
    exact foreign entry member (beq_iff_eq.mp same)
  rw [shareOf, none]
  rfl

variable {notified : NotifiedContext eventSourceId}

lemma shareOf_sentQueries (present : contexts[subscription]? = some notified) :
    shareOf subscription (sentQueries contexts) = notified.urisToQuery.elements := by
  have general : ∀ (start index : Nat), contexts[index]? = some notified ->
      shareOf (start + index) ((contexts.zipIdx start).flatMap fun entry =>
        entry.1.urisToQuery.elements.map (entry.2, ·)) = notified.urisToQuery.elements := by
    clear present
    induction contexts with
    | nil => exact fun start index found => nomatch found
    | cons first rest ih =>
      intro start index found
      rw [zipIdx_cons, flatMap_cons, shareOf_append]
      cases index with
      | zero =>
        cases found
        rw [Nat.add_zero, shareOf_map_self, shareOf_eq_nil, append_nil]
        intro entry member
        rcases mem_flatMap.mp member with ⟨⟨other, position⟩, indexed, listed⟩
        rcases mem_map.mp listed with ⟨uri, -, rfl⟩
        have later := le_snd_of_mem_zipIdx indexed
        omega
      | succ index =>
        have here : shareOf (start + (index + 1))
            (first.urisToQuery.elements.map (start, ·)) = [] := by
          apply shareOf_eq_nil
          intro entry member
          rcases mem_map.mp member with ⟨uri, -, rfl⟩
          omega
        have later := ih (start + 1) index found
        have moved : start + 1 + index = start + (index + 1) := by omega
        rw [moved] at later
        rw [here]
        exact later
  have found := general 0 subscription present
  rw [Nat.zero_add] at found
  exact found

lemma doneCallbacks_eq (present : contexts[subscription]? = some notified)
    (arrivals : List SentQuery) :
    doneCallbacks outcome contexts arrivals subscription =
      (AggregatedQueryResponse.addAll (fun uri => outcome (subscription, uri))
        (shareOf subscription arrivals) (.create notified.urisToQuery)).2 := by
  apply answers_shareOf arrivals
  rw [aggregatedResponses, getElem?_map, present]
  rfl

variable {arrivals : List SentQuery}

section

variable (present : contexts[subscription]? = some notified)

include present

lemma shareOf_perm (all : arrivals.Perm (sentQueries contexts)) :
    (shareOf subscription arrivals).Perm notified.urisToQuery.elements := by
  rw [<- shareOf_sentQueries present]
  exact (all.filter _).map _

/-- Every order of the answers of one subscription is part of an order of the answers
of all of them. -/
lemma exists_arrivals {order : List Text} (all : order.Perm notified.urisToQuery.elements) :
    ∃ arrivals : List SentQuery, arrivals.Perm (sentQueries contexts) ∧
      shareOf subscription arrivals = order := by
  refine ⟨order.map (subscription, ·) ++
    (sentQueries contexts).filter (fun query => !(query.1 == subscription)), ?_, ?_⟩
  · have own : (order.map (subscription, ·)).Perm
        ((sentQueries contexts).filter (·.1 == subscription)) := by
      rw [<- shareOf_sentQueries present] at all
      refine (all.map (subscription, ·)).trans (.of_eq ?_)
      rw [shareOf, map_map]
      refine (map_congr_left ?_).trans (map_id _)
      intro query member
      have same := beq_iff_eq.mp (mem_filter.mp member).2
      exact Prod.ext same.symm rfl
    exact (own.append_right _).trans (filter_append_perm _ _)
  · rw [shareOf_append, shareOf_map_self, shareOf_eq_nil, append_nil]
    intro query member same
    have foreign := (mem_filter.mp member).2
    rw [same, beq_self_eq_true] at foreign
    cases foreign

/-- When all answers of a subscription are successes, the callback is called with
the successful responses. -/
lemma doneCallbacks_of_successes (succeed : ∀ uri ∈ notified.urisToQuery.elements,
      (outcome (subscription, uri)).1.isOk = true) (all : arrivals.Perm (sentQueries contexts))
    (asked : notified.urisToQuery.elements ≠ []) :
    ∃ responses, doneCallbacks outcome contexts arrivals subscription = [responses] ∧
      HoldsSuccesses outcome subscription notified.urisToQuery responses := by
  have share := shareOf_perm present all
  rw [doneCallbacks_eq outcome present]
  generalize shareOf subscription arrivals = order at share
  have once : order.Nodup := share.nodup_iff.mpr notified.urisToQuery.distinct
  rcases eq_nil_or_concat order with rfl | ⟨before, last, same⟩
  · exact absurd share.symm.eq_nil asked
  · rw [concat_eq_append] at same
    subst same
    have fine := succeed last (share.subset (mem_append_right _ (.head _)))
    rw [AggregatedQueryResponse.addAll_complete share, if_pos fine]
    refine ⟨_, rfl, ?_⟩
    intro uri body
    rw [(AggregatedQueryResponse.addAll_state once fun uri member => share.subset member).2]
    simp only [share.mem_iff]
    by_cases member : uri ∈ notified.urisToQuery.elements
    · simp [member, succeed uri member]
    · simp [member, AggregatedQueryResponse.create]

lemma doneCallbacks_of_failure (all : arrivals.Perm (sentQueries contexts)) {before : List Text}
    {last : Text} (ends : shareOf subscription arrivals = before ++ [last])
    (failed : (outcome (subscription, last)).1.isOk = false) :
    doneCallbacks outcome contexts arrivals subscription = [] := by
  have share := shareOf_perm present all
  rw [ends] at share
  rw [doneCallbacks_eq outcome present, ends, AggregatedQueryResponse.addAll_complete share, if_neg]
  rw [failed]
  exact Bool.false_ne_true

lemma doneCallbacks_of_failures (fail : ∀ uri ∈ notified.urisToQuery.elements,
      (outcome (subscription, uri)).1.isOk = false) (all : arrivals.Perm (sentQueries contexts)) :
    doneCallbacks outcome contexts arrivals subscription = [] := by
  rcases eq_nil_or_concat (shareOf subscription arrivals) with none | ⟨before, last, ends⟩
  · rw [doneCallbacks_eq outcome present, none]
    rfl
  · rw [concat_eq_append] at ends
    have share := shareOf_perm present all
    rw [ends] at share
    have member := share.subset (mem_append_right _ (.head _))
    exact doneCallbacks_of_failure outcome present all ends (fail last member)

end

lemma HoldsSuccesses.sameMap {uris : HashSet Text} {first second : List (Text × Json)}
    (one : HoldsSuccesses outcome subscription uris first)
    (other : HoldsSuccesses outcome subscription uris second) : SameMap first second := by
  intro uri
  apply Option.ext
  intro body
  rw [one uri body, other uri body]

/-- The callback is not called before the last answer has arrived. -/
lemma doneCallbacks_early (present : contexts[subscription]? = some notified)
    {before after : List SentQuery} (all : (before ++ after).Perm (sentQueries contexts))
    {uri : Text} (later : (subscription, uri) ∈ after) :
    doneCallbacks outcome contexts before subscription = [] := by
  have share := shareOf_perm present all
  rw [shareOf_append] at share
  have once := share.nodup_iff.mpr notified.urisToQuery.distinct
  rcases nodup_append'.mp once with ⟨onceBefore, -, apart⟩
  have member : uri ∈ shareOf subscription after := mem_shareOf.mpr later
  rw [doneCallbacks_eq outcome present]
  refine AggregatedQueryResponse.addAll_quiet onceBefore ?_
    (share.subset (mem_append_right _ member)) fun early => apart early member
  exact fun other found => share.subset (mem_append_left _ found)

/-- For every notification and every outcome of its queries: what becomes of a subscription does not
depend on the order of the answers, and the successful ones are delivered once and at the end,
exactly when its queries all succeed or all fail. -/
theorem notification_delivered_iff {subscription : Nat} {notified : NotifiedContext eventSourceId}
    (present : contexts[subscription]? = some notified) :
    (OrderIndependent outcome contexts subscription ∧
        ((∃ uri ∈ notified.urisToQuery.elements,
            (outcome (subscription, uri)).1.isOk = true) ->
          FiresAtTheEnd outcome contexts subscription notified.urisToQuery)) ↔
      (∀ uri ∈ notified.urisToQuery.elements,
          (outcome (subscription, uri)).1.isOk = true) ∨
        ∀ uri ∈ notified.urisToQuery.elements, (outcome (subscription, uri)).1.isOk = false := by
  constructor
  · rintro ⟨-, fires⟩
    by_contra mixed
    rcases not_or.mp mixed with ⟨notAll, notNone⟩
    simp only [not_forall, Bool.not_eq_true, Bool.not_eq_false] at notAll notNone
    rcases notAll with ⟨bad, asked, failed⟩
    rcases notNone with ⟨good, member, fine⟩
    -- The failed answer arrives last.
    have order : (notified.urisToQuery.elements.erase bad ++ [bad]).Perm
        notified.urisToQuery.elements :=
      (List.perm_append_singleton _ _).trans (List.perm_cons_erase asked).symm
    rcases exists_arrivals present order with ⟨arrivals, all, ends⟩
    rcases (fires ⟨good, member, fine⟩ arrivals all).1 with ⟨responses, called, -⟩
    rw [doneCallbacks_of_failure outcome present all ends failed] at called
    cases called
  · intro alike
    refine ⟨?_, ?_⟩
    · intro first second allFirst allSecond
      by_cases silent : ∀ uri ∈ notified.urisToQuery.elements,
          (outcome (subscription, uri)).1.isOk = false
      · rw [doneCallbacks_of_failures outcome present silent allFirst,
          doneCallbacks_of_failures outcome present silent allSecond]
        exact .nil
      · have succeed := alike.resolve_right silent
        have asked : notified.urisToQuery.elements ≠ [] := by
          intro none
          rw [none] at silent
          exact silent nofun
        rcases doneCallbacks_of_successes outcome present succeed allFirst asked with
          ⟨one, calledFirst, holdsOne⟩
        rcases doneCallbacks_of_successes outcome present succeed allSecond asked with
          ⟨other, calledSecond, holdsOther⟩
        rw [calledFirst, calledSecond]
        exact .cons (holdsOne.sameMap outcome holdsOther) .nil
    · rintro ⟨uri, member, fine⟩ arrivals all
      rcases alike with succeed | fail
      · refine ⟨doneCallbacks_of_successes outcome present succeed all
          (List.ne_nil_of_mem member), ?_⟩
        rintro before after rfl ⟨other, later⟩
        exact doneCallbacks_early outcome present all later
      · rw [fail uri member] at fine
        cases fine

end

/-- One subscription with two resources. -/
def chassisContexts : List (NotifiedContext ⟨text "1", .dbusObjects⟩) :=
  [⟨⟨1, [(⟨text "1", .dbusObjects⟩, ⟨[text "/Chassis/1", text "/Chassis/2"], by decide⟩)]⟩,
    ⟨[text "/Chassis/1", text "/Chassis/2"], by decide⟩, rfl⟩]

theorem notification_delivered_chassisContexts :
    FiresAtTheEnd (fun _ => (.okStatus, .null)) chassisContexts 0
      ⟨[text "/Chassis/1", text "/Chassis/2"], by decide⟩ := by
  have present : chassisContexts[0]? = some _ := rfl
  have delivered := (notification_delivered_iff (fun _ => (.okStatus, .null)) present).mpr
    (.inl fun _ _ => rfl)
  exact delivered.2 ⟨text "/Chassis/1", .head _, rfl⟩

/-- The query of the second resource fails. -/
def chassisOutcome : SentQuery -> Status × Json := fun query =>
  if query.2 = text "/Chassis/1" then (.okStatus, .boolean true)
  else (.internal (text "Bad Response"), .null)

theorem notification_depends_on_order :
    ¬ OrderIndependent chassisOutcome chassisContexts 0 ∧
    doneCallbacks chassisOutcome chassisContexts
      [(0, text "/Chassis/1"), (0, text "/Chassis/2")] 0 = [] ∧
    doneCallbacks chassisOutcome chassisContexts
      [(0, text "/Chassis/2"), (0, text "/Chassis/1")] 0 =
        [[(text "/Chassis/1", .boolean true)]] := by
  have failedLast : doneCallbacks chassisOutcome chassisContexts
      [(0, text "/Chassis/1"), (0, text "/Chassis/2")] 0 = [] := rfl
  have failedFirst : doneCallbacks chassisOutcome chassisContexts
      [(0, text "/Chassis/2"), (0, text "/Chassis/1")] 0 =
        [[(text "/Chassis/1", .boolean true)]] := rfl
  refine ⟨?_, failedLast, failedFirst⟩
  intro independent
  have same := independent [(0, text "/Chassis/1"), (0, text "/Chassis/2")]
    [(0, text "/Chassis/2"), (0, text "/Chassis/1")] (.refl _) (.swap _ _ [])
  cases same

end Ecclesia.Server
