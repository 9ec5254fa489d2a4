import Ecclesia.Library.LinkedList
import Ecclesia.Pci.Config

namespace Ecclesia.Pci

open List

/-!
# The walk over the capabilities

Whatever a configuration space holds, the walk ends.  It calls its callback at the offsets of the
list, in their order, until one of them would come twice, the limit is reached, or something fails.
-/

section

variable {State : Type} (region : PciRegion) (callback : PciCapability -> State -> Status × State)

/-- The offset that the list starts at. -/
def firstOffset : Option (BitVec 8) :=
  (region.read8 kCapPointerOffset).toOption.map capabilityPointerToOffset

def followingOffset (offset : BitVec 8) : Option (BitVec 8) :=
  (PciCapability.mk region offset).nextCapabilityPointer.toOption.map capabilityPointerToOffset

/-- The offsets on the way from one offset to another. -/
abbrev Way : BitVec 8 -> List (BitVec 8) -> BitVec 8 -> Prop :=
  Leads 0 (followingOffset region)

/-- The offsets of a list that ends. -/
abbrev Listed : BitVec 8 -> List (BitVec 8) -> Prop :=
  IsList 0 (followingOffset region)

/-- The callback at some offsets, up to the first error. -/
def callAll : List (BitVec 8) -> State -> Status × State
  | [], state => (.okStatus, state)
  | offset :: rest, state =>
    let called := callback ⟨region, offset⟩ state
    if !called.1.isOk then called else callAll rest called.2

/-- A callback that also notes where it is called. -/
def noting (capability : PciCapability) (noted : List (BitVec 8) × State) :
    Status × List (BitVec 8) × State :=
  let called := callback capability noted.2
  (called.1, noted.1 ++ [capability.offset], called.2)

/-- The offsets that the callback is called at, in the order of the calls. -/
def calledOffsets (state : State) : List (BitVec 8) :=
  (forEachCapability region (noting callback) ([], state)).2.1

/-- After some offsets the walk calls its callback at a further one, new and within the limit. -/
structure DueAfter (start : BitVec 8) (visited : List (BitVec 8)) (state : State)
    (before : List (BitVec 8)) (offset : BitVec 8) : Prop where
  way : Way region start before offset
  present : offset ≠ 0
  distinct : (visited ++ (before ++ [offset])).Nodup
  few : (visited ++ before).length < kMaxPciCapabilities
  fine : (callAll region callback before state).1.isOk = true

/-- From an offset the list ends within the limit, and no callback fails at it. -/
structure EndsWell (start : BitVec 8) (visited : List (BitVec 8)) (state : State)
    (offsets : List (BitVec 8)) : Prop where
  listed : Listed region start offsets
  distinct : (visited ++ offsets).Nodup
  few : (visited ++ offsets).length <= kMaxPciCapabilities
  fine : (callAll region callback offsets state).1.isOk = true

end

variable {offsets : List (BitVec 8)} {offset start : BitVec 8}

section

variable {State : Type} {region : PciRegion} {callback : PciCapability -> State -> Status × State}

/-! ## One turn of the walk -/

variable {following : BitVec 8}

lemma followingOffset_ok
    (read : (PciCapability.mk region offset).nextCapabilityPointer = .ok following) :
    followingOffset region offset = some (capabilityPointerToOffset following) := by
  rw [followingOffset, read]
  rfl

lemma followingOffset_error {status : Status}
    (read : (PciCapability.mk region offset).nextCapabilityPointer = .error status) :
    followingOffset region offset = none := by
  rw [followingOffset, read]
  rfl

lemma callAll_cons {state : State}
    (fine : (callback ⟨region, offset⟩ state).1.isOk = true) (rest : List (BitVec 8)) :
    callAll region callback (offset :: rest) state =
      callAll region callback rest (callback ⟨region, offset⟩ state).2 := by
  rw [callAll, fine]
  rfl

lemma callAll_fails {state : State} (fails : (callback ⟨region, offset⟩ state).1.isOk = false)
    (rest : List (BitVec 8)) : (callAll region callback (offset :: rest) state).1.isOk = false := by
  rw [callAll, fails]
  exact fails

lemma callAll_fine_before {before after : List (BitVec 8)} : ∀ {state : State},
    (callAll region callback (before ++ after) state).1.isOk = true ->
      (callAll region callback before state).1.isOk = true := by
  induction before with
  | nil => exact fun _ => rfl
  | cons offset before ih =>
    intro state fine
    cases called : (callback ⟨region, offset⟩ state).1.isOk with
    | false =>
      rw [cons_append, callAll_fails called] at fine
      cases fine
    | true =>
      rw [cons_append, callAll_cons called] at fine
      rw [callAll_cons called]
      exact ih fine

/-- What a walk does from an offset on: where it calls, and when it succeeds. -/
structure WalkFrom (region : PciRegion) (callback : PciCapability -> State -> Status × State)
    (start : BitVec 8) (visited : List (BitVec 8)) (state : State) (status : Status)
    (calls : List (BitVec 8)) : Prop where
  due_iff : ∀ before offset, before ++ [offset] <+: calls <->
    DueAfter region callback start visited state before offset
  ok_iff : status.isOk = true <-> ∃ offsets, EndsWell region callback start visited state offsets

namespace WalkFrom

variable {start : BitVec 8} {visited : List (BitVec 8)} {state : State} {status : Status}

lemma atEnd (few : visited.length <= kMaxPciCapabilities) (distinct : visited.Nodup) :
    WalkFrom region callback 0 visited state .okStatus [] where
  due_iff := by
    intro before offset
    constructor
    · intro isPrefix
      exact absurd (prefix_nil.mp isPrefix) (by simp)
    · intro due
      cases due.way with
      | here => exact absurd rfl due.present
      | step present read later => exact absurd rfl present
  ok_iff := by
    constructor
    · intro _
      exact ⟨[], .here 0, by rwa [append_nil], by rwa [append_nil], rfl⟩
    · exact fun _ => rfl

section

variable (present : start ≠ 0)

include present

/-- Nothing is called if the next offset is one too many or was visited before. -/
lemma stopped (fails : status.isOk = false)
    (stop : visited.length = kMaxPciCapabilities ∨ start ∈ visited) :
    WalkFrom region callback start visited state status [] where
  due_iff := by
    intro before offset
    constructor
    · intro isPrefix
      exact absurd (prefix_nil.mp isPrefix) (by simp)
    · intro due
      have seen : start ∈ before ++ [offset] := by
        cases due.way with
        | here => exact mem_singleton_self _
        | step first read later => exact (.head _)
      have few := due.few
      rw [length_append] at few
      rcases stop with full | again
      · omega
      · exact absurd rfl ((nodup_append.mp due.distinct).2.2 start again start seen)
  ok_iff := by
    constructor
    · intro isOk
      rw [fails] at isOk
      cases isOk
    · rintro ⟨offsets, ends⟩
      have few := ends.few
      cases ends.listed with
      | here => exact absurd rfl present
      | step first read later =>
        rw [length_append, length_cons] at few
        rcases stop with full | again
        · omega
        · exact absurd rfl ((nodup_append.mp ends.distinct).2.2 start again start (.head _))

lemma due_here (few : visited.length < kMaxPciCapabilities)
    (new : start ∉ visited) (distinct : visited.Nodup) :
    DueAfter region callback start visited state [] start where
  way := .here start
  present := present
  distinct := by
    rw [nil_append, <- concat_eq_append]
    exact distinct.concat new
  few := by rwa [append_nil]
  fine := rfl

/-- If the callback fails, or the next pointer cannot be read, there is no further call. -/
lemma broken (few : visited.length < kMaxPciCapabilities)
    (new : start ∉ visited) (distinct : visited.Nodup) (fails : status.isOk = false)
    (stop : (callback ⟨region, start⟩ state).1.isOk = false ∨ followingOffset region start = none) :
    WalkFrom region callback start visited state status [start] where
  due_iff := by
    intro before offset
    constructor
    · intro isPrefix
      cases before with
      | nil =>
        cases (cons_prefix_cons.mp isPrefix).1
        exact due_here present few new distinct
      | cons first before =>
        have none_ := prefix_nil.mp (cons_prefix_cons.mp isPrefix).2
        exact absurd none_ (by simp)
    · intro due
      cases due.way with
      | here => exact prefix_refl _
      | step first read later =>
        rcases stop with callFails | unreadable
        · have fine := due.fine
          rw [callAll_fails callFails] at fine
          cases fine
        · rw [unreadable] at read
          cases read
  ok_iff := by
    constructor
    · intro isOk
      rw [fails] at isOk
      cases isOk
    · rintro ⟨offsets, ends⟩
      cases ends.listed with
      | here => exact absurd rfl present
      | step first read later =>
        rcases stop with callFails | unreadable
        · have fine := ends.fine
          rw [callAll_fails callFails] at fine
          cases fine
        · rw [unreadable] at read
          cases read

lemma step {calls : List (BitVec 8)} (few : visited.length < kMaxPciCapabilities)
    (new : start ∉ visited) (distinct : visited.Nodup)
    (fine : (callback ⟨region, start⟩ state).1.isOk = true)
    (read : followingOffset region start = some following)
    (later : WalkFrom region callback following (visited ++ [start])
      (callback ⟨region, start⟩ state).2 status calls) :
    WalkFrom region callback start visited state status (start :: calls) where
  due_iff := by
    intro before offset
    cases before with
    | nil =>
      rw [nil_append, cons_prefix_cons, and_iff_left nil_prefix]
      constructor
      · rintro rfl
        exact due_here present few new distinct
      · intro due
        cases due.way with
        | here => rfl
    | cons first before =>
      rw [cons_append, cons_prefix_cons, later.due_iff]
      constructor
      · rintro ⟨rfl, due⟩
        refine ⟨.step present read due.way, due.present, ?_, ?_, ?_⟩
        · simpa using due.distinct
        · simpa using due.few
        · rw [callAll_cons fine]
          exact due.fine
      · intro due
        rcases due with ⟨way, here, distinctAll, fewAll, fineAll⟩
        cases way with
        | step isPresent isNext behind =>
          rw [read] at isNext
          cases isNext
          refine ⟨rfl, behind, here, ?_, ?_, ?_⟩
          · simpa using distinctAll
          · simpa using fewAll
          · rwa [callAll_cons fine] at fineAll
  ok_iff := by
    rw [later.ok_iff]
    constructor
    · rintro ⟨offsets, ends⟩
      refine ⟨start :: offsets, .step present read ends.listed, ?_, ?_, ?_⟩
      · simpa using ends.distinct
      · simpa using ends.few
      · rw [callAll_cons fine]
        exact ends.fine
    · rintro ⟨offsets, listed, distinctAll, fewAll, fineAll⟩
      cases listed with
      | here => exact absurd rfl present
      | step isPresent isNext behind =>
        rw [read] at isNext
        cases isNext
        refine ⟨_, behind, ?_, ?_, ?_⟩
        · simpa using distinctAll
        · simpa using fewAll
        · rwa [callAll_cons fine] at fineAll

end

end WalkFrom

/-! ## The whole walk -/

section

variable {visited : HashSet (BitVec 8)} {nextPtr : BitVec 8}

lemma visitCapabilities_end (isEnd : capabilityPointerToOffset nextPtr = 0) (state : State) :
    visitCapabilities region callback visited nextPtr state = (.okStatus, state) := by
  rw [visitCapabilities]
  exact if_pos isEnd

variable (present : capabilityPointerToOffset nextPtr ≠ 0)
include present

lemma visitCapabilities_full (full : visited.elements.length = kMaxPciCapabilities)
    (state : State) :
    visitCapabilities region callback visited nextPtr state = (tooManyCapabilities, state) := by
  rw [visitCapabilities]
  rw [if_neg present, if_pos full]

variable (room : visited.elements.length ≠ kMaxPciCapabilities)
include room

lemma visitCapabilities_circular (seen : capabilityPointerToOffset nextPtr ∈ visited.elements)
    (state : State) :
    visitCapabilities region callback visited nextPtr state =
      (circularList (capabilityPointerToOffset nextPtr), state) := by
  rw [visitCapabilities]
  rw [if_neg present, if_neg room, dif_pos seen]

variable (new : capabilityPointerToOffset nextPtr ∉ visited.elements) {state : State}
include new

lemma visitCapabilities_fails
    (fails : (callback ⟨region, capabilityPointerToOffset nextPtr⟩ state).1.isOk = false) :
    visitCapabilities region callback visited nextPtr state =
      callback ⟨region, capabilityPointerToOffset nextPtr⟩ state := by
  rw [visitCapabilities]
  dsimp only
  rw [if_neg present, if_neg room, dif_neg new, fails]
  rfl

variable (fine : (callback ⟨region, capabilityPointerToOffset nextPtr⟩ state).1.isOk = true)
include fine

lemma visitCapabilities_unreadable {status : Status}
    (read : (PciCapability.mk region (capabilityPointerToOffset nextPtr)).nextCapabilityPointer =
      .error status) :
    visitCapabilities region callback visited nextPtr state =
      (status, (callback ⟨region, capabilityPointerToOffset nextPtr⟩ state).2) := by
  rw [visitCapabilities]
  dsimp only
  rw [if_neg present, if_neg room, dif_neg new, fine, read]
  rfl

lemma visitCapabilities_step
    (read : (PciCapability.mk region (capabilityPointerToOffset nextPtr)).nextCapabilityPointer =
      .ok following) :
    visitCapabilities region callback visited nextPtr state =
      visitCapabilities region callback (visited.insert (capabilityPointerToOffset nextPtr))
        following (callback ⟨region, capabilityPointerToOffset nextPtr⟩ state).2 := by
  rw [visitCapabilities]
  dsimp only
  rw [if_neg present, if_neg room, dif_neg new, fine, read]
  rfl

end

lemma visitCapabilities_walks (visited : HashSet (BitVec 8)) (nextPtr : BitVec 8)
    (state : State) : visited.elements.length <= kMaxPciCapabilities ->
      ∃ calls,
        (∀ noted, visitCapabilities region (noting callback) visited nextPtr (noted, state) =
          ((visitCapabilities region callback visited nextPtr state).1, noted ++ calls,
            (visitCapabilities region callback visited nextPtr state).2)) ∧
        WalkFrom region callback (capabilityPointerToOffset nextPtr) visited.elements state
          (visitCapabilities region callback visited nextPtr state).1 calls := by
  induction visited, nextPtr, state using visitCapabilities.induct region callback with
  | case1 visited nextPtr state capPtr isEnd =>
    intro few
    refine ⟨[], fun noted => ?_, ?_⟩
    · rw [visitCapabilities_end isEnd, visitCapabilities_end isEnd, append_nil]
    · rw [visitCapabilities_end isEnd]
      have here : capabilityPointerToOffset nextPtr = 0 := isEnd
      rw [here]
      exact .atEnd few visited.distinct
  | case2 visited nextPtr state capPtr present full =>
    intro few
    refine ⟨[], fun noted => ?_, ?_⟩
    · rw [visitCapabilities_full present full, visitCapabilities_full present full, append_nil]
    · rw [visitCapabilities_full present full]
      exact .stopped present rfl (.inl full)
  | case3 visited nextPtr state capPtr present room seen =>
    intro few
    refine ⟨[], fun noted => ?_, ?_⟩
    · rw [visitCapabilities_circular present room seen,
        visitCapabilities_circular present room seen, append_nil]
    · rw [visitCapabilities_circular present room seen]
      exact .stopped present rfl (.inr seen)
  | case4 visited nextPtr state capPtr present room new capability called fails =>
    intro few
    have callFails : called.1.isOk = false := by simpa using fails
    refine ⟨[capPtr], fun noted => ?_, ?_⟩
    · have notedFails : (noting callback capability (noted, state)).1.isOk = false := callFails
      rw [visitCapabilities_fails present room new callFails]
      exact visitCapabilities_fails present room new notedFails
    · rw [visitCapabilities_fails present room new callFails]
      exact .broken present (Nat.lt_of_le_of_ne few room) new visited.distinct callFails
        (.inl callFails)
  | case5 visited nextPtr state capPtr present room new capability called fine status read =>
    intro few
    have callFine : called.1.isOk = true := by simpa using fine
    refine ⟨[capPtr], fun noted => ?_, ?_⟩
    · have notedFine : (noting callback capability (noted, state)).1.isOk = true := callFine
      rw [visitCapabilities_unreadable present room new callFine read]
      exact visitCapabilities_unreadable present room new notedFine read
    · rw [visitCapabilities_unreadable present room new callFine read]
      exact .broken present (Nat.lt_of_le_of_ne few room) new visited.distinct
        (region.read8_error _ _ read) (.inr (followingOffset_error read))
  | case6 visited nextPtr state capPtr present room new capability called fine following read ih =>
    intro few
    have callFine : called.1.isOk = true := by simpa using fine
    have elements := HashSet.elements_insert new
    have fewAfter : (visited.insert capPtr).elements.length <= kMaxPciCapabilities := by
      rw [elements, length_append, length_singleton]
      omega
    rcases ih fewAfter with ⟨calls, noting_, later⟩
    refine ⟨capPtr :: calls, fun noted => ?_, ?_⟩
    · have notedFine : (noting callback capability (noted, state)).1.isOk = true := callFine
      rw [visitCapabilities_step present room new callFine read]
      refine (visitCapabilities_step present room new notedFine read).trans ?_
      have behind := noting_ (noted ++ [capPtr])
      rw [append_assoc] at behind
      exact behind
    · rw [visitCapabilities_step present room new callFine read]
      rw [elements] at later
      exact .step present (Nat.lt_of_le_of_ne few room) new visited.distinct callFine
        (followingOffset_ok read) later

lemma visitCapabilities_listed :
    ∀ {visited : HashSet (BitVec 8)} {nextPtr : BitVec 8} {state : State},
      Listed region (capabilityPointerToOffset nextPtr) offsets ->
      (visited.elements ++ offsets).Nodup ->
      (visited.elements ++ offsets).length <= kMaxPciCapabilities ->
      visitCapabilities region callback visited nextPtr state =
        callAll region callback offsets state := by
  induction offsets with
  | nil =>
    intro visited nextPtr state listed _ _
    exact visitCapabilities_end listed.null_of_nil state
  | cons offset rest ih =>
    intro visited nextPtr state listed distinct few
    cases listed with
    | step present read later =>
      rw [length_append, length_cons] at few
      have room : visited.elements.length ≠ kMaxPciCapabilities := by omega
      have new : capabilityPointerToOffset nextPtr ∉ visited.elements := fun member =>
        (nodup_append.mp distinct).2.2 _ member _ (.head _) rfl
      cases called : (callback ⟨region, capabilityPointerToOffset nextPtr⟩ state).1.isOk with
      | false =>
        rw [visitCapabilities_fails present room new called, callAll, called]
        rfl
      | true =>
        cases pointer : (PciCapability.mk region
            (capabilityPointerToOffset nextPtr)).nextCapabilityPointer with
        | error status =>
          rw [followingOffset_error pointer] at read
          cases read
        | ok following =>
          rw [followingOffset_ok pointer] at read
          cases read
          rw [visitCapabilities_step present room new called pointer, callAll_cons called]
          apply ih later
          · rw [HashSet.elements_insert new, append_assoc]
            exact distinct
          · rw [HashSet.elements_insert new, length_append, length_append,
              length_singleton]
            omega

lemma forEachCapability_listed
    (isStart : firstOffset region = some start) (listed : Listed region start offsets)
    (few : offsets.length <= kMaxPciCapabilities) (state : State) :
    forEachCapability region callback state = callAll region callback offsets state := by
  unfold firstOffset at isStart
  unfold forEachCapability
  cases read : region.read8 kCapPointerOffset with
  | error status =>
    rw [read] at isStart
    cases isStart
  | ok nextPtr =>
    rw [read] at isStart
    cases isStart
    exact visitCapabilities_listed listed listed.nodup few

variable (region callback) (state : State)

/-- The calls of the whole walk, and its status. -/
lemma forEachCapability_calls :
    (∀ before offset, before ++ [offset] <+: calledOffsets region callback state <->
      ∃ start, firstOffset region = some start ∧
        DueAfter region callback start [] state before offset) ∧
    ((forEachCapability region callback state).1.isOk = true <->
      ∃ start, firstOffset region = some start ∧
        ∃ offsets, EndsWell region callback start [] state offsets) := by
  unfold calledOffsets forEachCapability firstOffset
  cases read : region.read8 kCapPointerOffset with
  | error status =>
    constructor
    · intro before offset
      constructor
      · intro isPrefix
        exact absurd (prefix_nil.mp isPrefix) (by simp)
      · rintro ⟨start, isStart, _⟩
        cases isStart
    · constructor
      · intro isOk
        rw [region.read8_error _ _ read] at isOk
        cases isOk
      · rintro ⟨start, isStart, _⟩
        cases isStart
  | ok nextPtr =>
    have walked := @visitCapabilities_walks State region callback .empty nextPtr state
      (Nat.zero_le _)
    rcases walked with ⟨calls, noting_, walk⟩
    dsimp only
    rw [noting_ [], nil_append]
    constructor
    · intro before offset
      rw [walk.due_iff]
      constructor
      · exact fun due => ⟨_, rfl, due⟩
      · rintro ⟨start, isStart, due⟩
        cases isStart
        exact due
    · rw [walk.ok_iff]
      constructor
      · exact fun ends => ⟨_, rfl, ends⟩
      · rintro ⟨start, isStart, ends⟩
        cases isStart
        exact ends

variable {region callback state}

lemma calledOffsets_of_endsWell (isStart : firstOffset region = some start)
    (ends : EndsWell region callback start [] state offsets) :
    calledOffsets region callback state = offsets := by
  have due_iff := (forEachCapability_calls region callback state).1
  have isPrefix : offsets <+: calledOffsets region callback state := by
    rcases eq_nil_or_concat offsets with rfl | ⟨before, last, rfl⟩
    · exact nil_prefix
    · rw [concat_eq_append] at ends ⊢
      rcases Leads.split ends.listed with ⟨following, way, present, _, _⟩
      have few := ends.few
      rw [nil_append, length_append] at few
      apply (due_iff before last).mpr
      exact ⟨start, isStart, way, present, ends.distinct, few, callAll_fine_before ends.fine⟩
  rcases isPrefix with ⟨more, whole⟩
  cases more with
  | nil => rw [<- whole, append_nil]
  | cons offset more =>
    have called : offsets ++ [offset] <+: calledOffsets region callback state :=
      ⟨more, by rw [<- whole, append_assoc]; rfl⟩
    rcases (due_iff offsets offset).mp called with ⟨other, isOther, due⟩
    rw [isStart] at isOther
    cases isOther
    rcases due.way.isList ends.listed with ⟨rest, same, behind⟩
    rw [self_eq_append_right.mp same] at behind
    cases behind
    exact absurd rfl due.present

end

/-- The callback is called at the offsets of the list, in their order, each at most once and not
more than 48 of them. The walk succeeds exactly if the list ends within this limit and nothing fails
on the way. -/
theorem forEachCapability_walks :
    ∀ {State : Type} (region : PciRegion)
      (callback : PciCapability -> State -> Status × State) (state : State),
      (∀ before offset, before ++ [offset] <+: calledOffsets region callback state <->
        ∃ start, firstOffset region = some start ∧
          DueAfter region callback start [] state before offset) ∧
      (calledOffsets region callback state).Nodup ∧
      (calledOffsets region callback state).length <= kMaxPciCapabilities ∧
      ((forEachCapability region callback state).1.isOk = true <->
        ∃ start offsets, firstOffset region = some start ∧ Listed region start offsets ∧
          offsets.Nodup ∧ offsets.length <= kMaxPciCapabilities ∧
          (callAll region callback offsets state).1.isOk = true) ∧
      ((forEachCapability region callback state).1.isOk = true ->
        ∃ start, firstOffset region = some start ∧
          Listed region start (calledOffsets region callback state)) := by
  intro State region callback state
  have calls := forEachCapability_calls region callback state
  have bounds : (calledOffsets region callback state).Nodup ∧
      (calledOffsets region callback state).length <= kMaxPciCapabilities := by
    rcases List.eq_nil_or_concat (calledOffsets region callback state) with none_ | some_
    · rw [none_]
      exact ⟨List.nodup_nil, Nat.zero_le _⟩
    · rcases some_ with ⟨before, last, whole⟩
      rw [List.concat_eq_append] at whole
      rcases (calls.1 before last).mp (whole ▸ List.prefix_refl _) with ⟨start, _, due⟩
      rw [whole, List.length_append]
      exact ⟨due.distinct, due.few⟩
  refine ⟨calls.1, bounds.1, bounds.2, ?_, ?_⟩
  · rw [calls.2]
    constructor
    · rintro ⟨start, isStart, offsets, ends⟩
      exact ⟨start, offsets, isStart, ends.listed, ends.distinct, ends.few, ends.fine⟩
    · rintro ⟨start, offsets, isStart, listed, distinct, few, fine⟩
      exact ⟨start, isStart, offsets, listed, distinct, few, fine⟩
  · intro isOk
    rcases calls.2.mp isOk with ⟨start, isStart, offsets, ends⟩
    rw [calledOffsets_of_endsWell isStart ends]
    exact ⟨start, isStart, ends.listed⟩

/-! ## The other way to walk -/

/-- The offsets that are visited from a capability on, until there is no next capability. -/
inductive Follows : PciCapability -> List (BitVec 8) -> Prop
  | last {capability : PciCapability} {status : Status}
      (none : capability.nextCapability = .error status) (notFound : status.code = .notFound) :
      Follows capability [capability.offset]
  | next {capability following : PciCapability} {rest : List (BitVec 8)}
      (some : capability.nextCapability = .ok following) (later : Follows following rest) :
      Follows capability (capability.offset :: rest)

section

variable {region : PciRegion}

lemma nextCapability_none (read : (PciCapability.mk region offset).nextCapabilityPointer = .ok 0) :
    (PciCapability.mk region offset).nextCapability =
      .error (.notFound (text "no more capabilities")) := by
  rw [PciCapability.nextCapability, read]
  rfl

lemma nextCapability_some {nextPtr : BitVec 8} (present : nextPtr ≠ 0)
    (read : (PciCapability.mk region offset).nextCapabilityPointer = .ok nextPtr) :
    (PciCapability.mk region offset).nextCapability =
      .ok ⟨region, capabilityPointerToOffset nextPtr⟩ := by
  rw [PciCapability.nextCapability, read]
  exact if_neg present

lemma not_follows_nil (capability : PciCapability) : ¬ Follows capability [] := by
  intro follows
  cases follows

lemma follows_iff (listed : Listed region start offsets) {last : BitVec 8}
    (isLast : offsets.getLast? = some last) :
    Follows ⟨region, start⟩ offsets <->
      (PciCapability.mk region last).nextCapabilityPointer = .ok 0 := by
  induction offsets generalizing start with
  | nil => cases isLast
  | cons first rest ih =>
    cases listed with
    | step present read later =>
      cases pointer : (PciCapability.mk region first).nextCapabilityPointer with
      | error status =>
        rw [followingOffset_error pointer] at read
        cases read
      | ok nextPtr =>
        rw [followingOffset_ok pointer] at read
        cases read
        cases rest with
        | nil =>
          have same : first = last := by simpa using isLast
          subst same
          rw [pointer]
          constructor
          · intro follows
            by_contra some_
            have present : nextPtr ≠ 0 := fun zero => some_ (congrArg Except.ok zero)
            cases follows with
            | last none =>
              rw [nextCapability_some present pointer] at none
              cases none
            | next some later => exact not_follows_nil _ later
          · intro zero
            cases zero
            exact .last (nextCapability_none pointer) rfl
        | cons second rest =>
          have more : nextPtr ≠ 0 := by
            rintro rfl
            have none_ := IsList.nil_of_null later
            cases none_
          have following := nextCapability_some more pointer
          rw [<- ih later isLast]
          constructor
          · intro follows
            cases follows with
            | next some behind =>
              rw [following] at some
              cases some
              exact behind
          · exact fun behind => .next following behind

end

/-- Where the walk with a callback succeeds, following the next capabilities visits the same offsets
exactly if the next pointer of the last one is zero, with its reserved bits. -/
theorem nextCapability_agrees_iff :
    ∀ {State : Type} (region : PciRegion)
      (callback : PciCapability -> State -> Status × State) (state : State)
      (first : BitVec 8) (rest : List (BitVec 8)),
      (forEachCapability region callback state).1.isOk = true ->
      calledOffsets region callback state = first :: rest ->
      (Follows ⟨region, first⟩ (first :: rest) <->
        (PciCapability.mk region ((first :: rest).getLast (List.cons_ne_nil _ _))).nextCapabilityPointer
          = .ok 0) := by
  intro State region callback state first rest isOk visited
  rcases (forEachCapability_walks region callback state).2.2.2.2 isOk with ⟨start, _, listed⟩
  rw [visited] at listed
  cases listed with
  | step present read later =>
    exact follows_iff (.step present read later) (List.getLast?_eq_getLast_of_ne_nil _)

/-- A region that holds these bytes. -/
def bytesRegion (bytes : Nat -> BitVec 8) : PciRegion where
  read8 offset := .ok (bytes offset)
  read16 offset := .ok (bytes (offset + 1) ++ bytes offset)
  read8_error := fun _ _ failed => by cases failed

lemma readsSucceed_bytesRegion (bytes : Nat -> BitVec 8) : ReadsSucceed (bytesRegion bytes) where
  bytes offset := ⟨bytes offset, rfl⟩
  words offset := ⟨bytes (offset + 1) ++ bytes offset, rfl⟩

/-- A callback that only succeeds. -/
def visitAll (_ : PciCapability) (state : Unit) : Status × Unit := (.okStatus, state)

def oneCapability (nextPtr : BitVec 8) : PciRegion :=
  bytesRegion fun offset => if offset = 0x34 then 64 else if offset = 65 then nextPtr else 0

lemma endsWell_oneCapability (nextPtr : BitVec 8) (masked : capabilityPointerToOffset nextPtr = 0) :
    EndsWell (oneCapability nextPtr) visitAll 64 [] () [64] where
  listed := by
    have next : followingOffset (oneCapability nextPtr) 64 = some 0 := congrArg some masked
    exact .step (by decide) next (.here 0)
  distinct := by decide
  few := by decide
  fine := rfl

theorem nextCapability_agrees_one : Follows ⟨oneCapability 0, 64⟩ [64] := by
  have ends := endsWell_oneCapability 0 rfl
  have isOk := (forEachCapability_calls (oneCapability 0) visitAll ()).2.mpr ⟨64, rfl, [64], ends⟩
  exact (nextCapability_agrees_iff (oneCapability 0) visitAll () 64 [] isOk
    (calledOffsets_of_endsWell rfl ends)).mpr rfl

/-- A last pointer with a reserved bit ends the walk with a callback only. -/
theorem nextCapability_reserved_bit :
    ¬ ∀ (region : PciRegion) (first : BitVec 8) (rest : List (BitVec 8)),
      ReadsSucceed region ->
      (forEachCapability region visitAll ()).1.isOk = true ->
      calledOffsets region visitAll () = first :: rest ->
      Follows ⟨region, first⟩ (first :: rest) := by
  intro always
  have ends := endsWell_oneCapability 2 rfl
  have isOk := (forEachCapability_calls (oneCapability 2) visitAll ()).2.mpr ⟨64, rfl, [64], ends⟩
  have follows := always (oneCapability 2) 64 [] (readsSucceed_bytesRegion _) isOk
    (calledOffsets_of_endsWell rfl ends)
  have zero := (follows_iff ends.listed rfl).mp follows
  exact absurd zero (by decide)

end Ecclesia.Pci
