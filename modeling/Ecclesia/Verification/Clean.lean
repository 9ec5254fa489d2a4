import Ecclesia.Verification.Compare

namespace Ecclesia.Verification

open Absl List
open Prod (fst)
open Report (clean_bind clean_pure)
open Option (bind_eq_some_iff bind_none bind_some map_some some_inj)

/-!
# Comparisons without a difference

A comparison is clean if it writes no error and returns an ok status.  For scalar
values and for lists this is said in terms of the values: which values agree, which
keys the items of a list have, and that items with the same key agree.
-/

/-- The values that have parts. -/
def isComposite : QueryValue -> Bool
  | .subquery _ => true
  | .list _ => true
  | _ => false

def sameValue : QueryValue -> QueryValue -> Option Bool
  | .int a, .int b => some (a == b)
  | .double a, .double b => some (a == b)
  | .string a, .string b => some (a == b)
  | .bool a, .bool b => some (a == b)
  | .timestamp secondsA nanosA, .timestamp secondsB nanosB =>
    some (timeOf secondsA nanosA == timeOf secondsB nanosB)
  | .identifier a, .identifier b => some (sameIdentifier a b)
  | .rawString a, .rawString b => some (a == b)
  | .rawBytes a, .rawBytes b => some (a == b)
  | _, _ => none

/-- Whether a comparison is content with values that are, or are not, the same. -/
def admits : Compare -> Bool -> Bool
  | .unknown, _ => true
  | .equal, same => same
  | .notEqual, same => !same
  | .other _, _ => false

/-- Two values can be compared, and the comparison is content with them. -/
def Agrees (comparison : Compare) (valueA valueB : QueryValue) : Prop :=
  ∃ same, sameValue valueA valueB = some same ∧ admits comparison same = true

lemma sameIdentifier_comm (first second : Identifier) :
    sameIdentifier first second = sameIdentifier second first := by
  simp only [sameIdentifier, Bool.beq_comm]

lemma sameValue_comm (valueA valueB : QueryValue) :
    sameValue valueA valueB = sameValue valueB valueA := by
  unfold sameValue
  cases valueA <;> cases valueB <;>
    simp only [Bool.beq_comm, sameIdentifier_comm]

lemma Agrees.swap {comparison : Compare} {valueA valueB : QueryValue}
    (agrees : Agrees comparison valueA valueB) : Agrees comparison valueB valueA := by
  rcases agrees with ⟨same, found, content⟩
  exact ⟨same, sameValue_comm valueA valueB ▸ found, content⟩

lemma clean_compare (texts : ValueTexts) (options : VerificationOptions) (same : Bool)
    (valueA valueB : QueryValue) (comparison : Compare) (context : VerificationContext) :
    (compare texts options same valueA valueB comparison context).clean =
      if admits comparison same then some () else none := by
  cases comparison with
  | unknown => rfl
  | equal => cases same with
    | true => rfl
    | false => rfl
  | notEqual => cases same with
    | true => rfl
    | false => rfl
  | other value => rfl

variable {texts : ValueTexts} {options : VerificationOptions} {context : VerificationContext}

lemma clean_compareQueryValues {valueA valueB : QueryValue} {comparison : Compare} :
    (compareQueryValues texts options valueA valueB comparison context).clean = some () ↔
      Agrees comparison valueA valueB := by
  have outcome : (compareQueryValues texts options valueA valueB comparison context).clean =
      (sameValue valueA valueB).bind fun same =>
        if admits comparison same then some () else none := by
    unfold compareQueryValues sameValue
    split <;> simp only [clean_compare, bind_some]
    · rfl
    · split
      · rfl
      · split
        · rfl
        · split
          · rfl
          · rfl
  rw [outcome, bind_eq_some_iff]
  simp [Agrees]

/-- The keys of the items of a list, or the error for an item that has none. -/
def itemTags (texts : ValueTexts) (identifiers : List Text) (values : List QueryValue) :
    List (StatusOr Text × QueryValue) :=
  values.zipIdx.map fun item =>
    (if identifiers.isEmpty then .ok (strCatNat item.2) else generateIdentifier texts identifiers item.1,
      item.1)

def keyedItems : List (StatusOr Text × QueryValue) -> Option (List (Text × QueryValue))
  | [] => some []
  | (.error _, _) :: _ => none
  | (.ok key, value) :: rest => (keyedItems rest).map fun later => (key, value) :: later

/-- The items with their keys, if all of them have one and no two have the same. -/
def identify (texts : ValueTexts) (identifiers : List Text) (values : List QueryValue) :
    Option (List (Text × QueryValue)) :=
  (keyedItems (itemTags texts identifiers values)).filter fun items =>
    (items.map Prod.fst).Nodup

def isOccupied (isFirstItem : Bool) (dataMap : HashMap Text ItemPair) (key : Text) : Bool :=
  (dataMap.lookup key).any fun pair => isFirstItem || pair.second.isSome

lemma isOccupied_putItem (isFirstItem : Bool) (dataMap : HashMap Text ItemPair)
    (key other : Text) (value : QueryValue) :
    isOccupied isFirstItem (putItem isFirstItem dataMap key value) other =
      (other == key || isOccupied isFirstItem dataMap other) := by
  rw [isOccupied, putItem, HashMap.lookup_assign]
  by_cases same : other = key
  · subst same
    cases isFirstItem with
    | true => simp
    | false => simp
  · rw [if_neg (by simpa using same), beq_false_of_ne same, Bool.false_or, isOccupied]

def putItems (isFirstItem : Bool) (dataMap : HashMap Text ItemPair)
    (items : List (Text × QueryValue)) : HashMap Text ItemPair :=
  items.foldl (fun dataMap item => putItem isFirstItem dataMap item.1 item.2) dataMap

/-- The map that the loop makes of items with their keys; a key that is occupied ends it. -/
def fillMap (isFirstItem useIndex : Bool) :
    List (StatusOr Text × QueryValue) -> HashMap Text ItemPair -> Option (HashMap Text ItemPair)
  | [], dataMap => some dataMap
  | (.error _, _) :: _, _ => none
  | (.ok key, value) :: rest, dataMap =>
    if !useIndex && isOccupied isFirstItem dataMap key then none
    else fillMap isFirstItem useIndex rest (putItem isFirstItem dataMap key value)

variable {identifiers : List Text} {values : List QueryValue} {isFirstItem : Bool}

lemma clean_addToDataMap {label : Text} (dataMap : HashMap Text ItemPair) :
    (addToDataMap texts identifiers values label isFirstItem identifiers.isEmpty context dataMap).clean =
      fillMap isFirstItem identifiers.isEmpty (itemTags texts identifiers values) dataMap := by
  have loop : ∀ (items : List (QueryValue × Nat)) (dataMap : HashMap Text ItemPair),
      (items.foldlM (addItem texts identifiers label isFirstItem identifiers.isEmpty context)
        dataMap).clean =
      fillMap isFirstItem identifiers.isEmpty (items.map fun item =>
        (if identifiers.isEmpty then .ok (strCatNat item.2)
          else generateIdentifier texts identifiers item.1, item.1)) dataMap := by
    intro items
    induction items with
    | nil => exact fun _ => rfl
    | cons item rest ih =>
      intro dataMap
      rw [foldlM_cons, clean_bind, map_cons]
      simp only [ih]
      unfold addItem
      by_cases useIndex : identifiers.isEmpty = true
      · simp [useIndex, fillMap]
      · simp only [useIndex]
        cases generated : generateIdentifier texts identifiers item.1 with
        | error status => simp [fillMap, clean_bind, addError]
        | ok key =>
          by_cases occupied : isOccupied isFirstItem dataMap key = true
          · have found := occupied
            rw [isOccupied] at found
            simp [fillMap, occupied, found, clean_bind, addError]
          · have found := occupied
            rw [isOccupied] at found
            simp [fillMap, occupied, found]
  rw [addToDataMap, clean_bind, loop, itemTags]
  simp [clean_bind, processResult]

variable {useIndex : Bool}

lemma fillMap_eq (tags : List (StatusOr Text × QueryValue)) :
    ∀ dataMap : HashMap Text ItemPair, fillMap isFirstItem useIndex tags dataMap =
      (keyedItems tags).bind fun items =>
        if useIndex = true ∨ ((items.map fst).Nodup ∧
          ∀ key ∈ items.map fst, isOccupied isFirstItem dataMap key = false) then
          some (putItems isFirstItem dataMap items)
        else none := by
  induction tags with
  | nil =>
    intro dataMap
    simp [fillMap, keyedItems, putItems]
  | cons tag rest ih =>
    intro dataMap
    rcases tag with ⟨status | key, value⟩
    · rfl
    · rw [fillMap, ih, keyedItems]
      cases keyedItems rest with
      | none =>
        rw [Option.map_none, bind_none, bind_none, ite_self]
      | some later =>
        simp only [bind_some, map_some, map_cons, nodup_cons,
          forall_mem_cons, isOccupied_putItem, Bool.or_eq_false_iff]
        by_cases byIndex : useIndex = true
        · simp [byIndex, putItems]
        · simp only [byIndex, false_or, Bool.not_false, Bool.true_and,
            Bool.false_eq_true]
          by_cases occupied : isOccupied isFirstItem dataMap key = true
          · rw [if_pos occupied, if_neg]
            intro free
            rw [free.2.1] at occupied
            cases occupied
          · rw [if_neg occupied]
            refine if_congr ?_ rfl rfl
            have apart : (∀ other ∈ later.map fst, (other == key) = false) ↔
                key ∉ later.map fst := by
              constructor
              · intro different inside
                simpa using different key inside
              · intro absent other inside
                exact beq_false_of_ne fun same => absent (same ▸ inside)
            simp only [forall_and, apart, Bool.not_eq_true _ ▸ occupied, true_and]
            constructor
            · rintro ⟨distinct, absent, free⟩
              exact ⟨⟨absent, distinct⟩, free⟩
            · rintro ⟨⟨absent, distinct⟩, free⟩
              exact ⟨distinct, absent, free⟩

lemma keyedItems_ok {Item : Type} (items : List Item) (key : Item -> Text)
    (value : Item -> QueryValue) :
    keyedItems (items.map fun item => (.ok (key item), value item)) =
      some (items.map fun item => (key item, value item)) := by
  induction items with
  | nil => rfl
  | cons item rest ih =>
    rw [map_cons, keyedItems, ih]
    rfl

/-- The positions in a list are distinct keys. -/
lemma identify_index (byIndex : identifiers.isEmpty = true) :
    identify texts identifiers values = keyedItems (itemTags texts identifiers values) := by
  have keyed : keyedItems (itemTags texts identifiers values) =
      some (values.zipIdx.map fun item => (strCatNat item.2, item.1)) := by
    simp only [itemTags, byIndex]
    exact keyedItems_ok values.zipIdx (fun item => strCatNat item.2) (fun item => item.1)
  have distinct : ((values.zipIdx.map fun item => (strCatNat item.2, item.1)).map fst).Nodup := by
    have positions : (values.zipIdx.map Prod.snd).Nodup := by
      rw [zipIdx_map_snd]
      exact nodup_range'
    rw [map_map]
    have renamed := positions.map fun first second => strCatNat_injective
    rw [map_map] at renamed
    exact renamed
  rw [identify, keyed, Option.filter_some, if_pos (decide_eq_true distinct)]

lemma fillMap_identify {dataMap : HashMap Text ItemPair}
    (free : ∀ key, isOccupied isFirstItem dataMap key = false) :
    fillMap isFirstItem identifiers.isEmpty (itemTags texts identifiers values) dataMap =
      (identify texts identifiers values).map (putItems isFirstItem dataMap) := by
  rw [fillMap_eq]
  by_cases byIndex : identifiers.isEmpty = true
  · rw [identify_index byIndex]
    simp only [byIndex]
    exact Option.map_eq_bind.symm
  · rw [identify]
    cases keyedItems (itemTags texts identifiers values) with
    | none => rfl
    | some items =>
      simp only [bind_some, byIndex, false_or, free, implies_true, and_true,
        Option.filter_some, Bool.false_eq_true, decide_eq_true_eq]
      split
      · rfl
      · rfl

lemma lookup_putItems (items : List (Text × QueryValue)) :
    ∀ (dataMap : HashMap Text ItemPair) (key : Text), (items.map fst).Nodup ->
      (putItems isFirstItem dataMap items).lookup key =
        match items.lookup key with
        | none => dataMap.lookup key
        | some value =>
          let pair := (dataMap.lookup key).getD ⟨none, none⟩
          some (if isFirstItem then { pair with first := some value }
            else { pair with second := some value }) := by
  induction items with
  | nil => exact fun _ _ _ => rfl
  | cons item rest ih =>
    intro dataMap key distinct
    rcases item with ⟨present, value⟩
    rcases nodup_cons.mp distinct with ⟨absent, distinctRest⟩
    have step : putItems isFirstItem dataMap ((present, value) :: rest) =
        putItems isFirstItem (putItem isFirstItem dataMap present value) rest := rfl
    rw [step, ih _ _ distinctRest, lookup_cons]
    by_cases same : key = present
    · subst same
      have missing : rest.lookup key = none := by
        rw [<- Option.not_isSome_iff_eq_none, lookup_isSome_iff]
        exact absent
      rw [missing]
      simp only [putItem, HashMap.lookup_assign, beq_self_eq_true, if_true]
    · have untouched : (putItem isFirstItem dataMap present value).lookup key =
          dataMap.lookup key := by
        rw [putItem, HashMap.lookup_assign, if_neg (by simpa using same)]
      rw [untouched, beq_false_of_ne same]

def itemMap (itemsA itemsB : List (Text × QueryValue)) : HashMap Text ItemPair :=
  putItems false (putItems true ⟨[], List.nodup_nil⟩ itemsA) itemsB

variable {itemsA itemsB : List (Text × QueryValue)}

lemma lookup_itemMap (distinctA : (itemsA.map fst).Nodup)
    (distinctB : (itemsB.map fst).Nodup) (key : Text) :
    (itemMap itemsA itemsB).lookup key =
      if itemsA.lookup key = none ∧ itemsB.lookup key = none then none
      else some ⟨itemsA.lookup key, itemsB.lookup key⟩ := by
  rw [itemMap, lookup_putItems itemsB _ _ distinctB, lookup_putItems itemsA _ _ distinctA]
  have empty : (HashMap.lookup ⟨[], nodup_nil⟩ key : Option ItemPair) = none := rfl
  rw [empty]
  cases itemsA.lookup key with
  | none => cases itemsB.lookup key with
    | none => simp
    | some b => simp
  | some a => cases itemsB.lookup key with
    | none => simp
    | some b => simp

variable {items : List (Text × QueryValue)}

lemma not_isOccupied_putItems (distinct : (items.map fst).Nodup) (key : Text) :
    isOccupied false (putItems true ⟨[], nodup_nil⟩ items) key = false := by
  have empty : (HashMap.lookup ⟨[], nodup_nil⟩ key : Option ItemPair) = none := rfl
  rw [isOccupied, lookup_putItems items _ _ distinct]
  cases items.lookup key with
  | none => rfl
  | some value => rfl

lemma identify_distinct
    (identified : identify texts identifiers values = some items) : (items.map fst).Nodup := by
  rw [identify, Option.filter_eq_some_iff] at identified
  simpa using identified.2

lemma clean_checkListItem {identifier label : Text} {item : Option QueryValue}
    {messages after : List Text} :
    (checkListItem identifier useIndex label context item messages).clean = some after ↔
      item.isSome = true ∧ messages = after := by
  cases item with
  | none => simp [checkListItem, clean_bind, addError]
  | some value => simp [checkListItem]

/-- What the comparison of two items needs in order to be clean. -/
def ItemsAgree (comparison : ListComparison) (itemA itemB : QueryValue)
    (context : VerificationContext) : Prop :=
  match itemA with
  | .subquery fields => (comparison.data fields (subqueryValue itemB) context).clean = some ()
  | .list _ => False
  | _ => Agrees comparison.comparison itemA itemB

variable {comparison : ListComparison}

lemma clean_compareItems {itemA itemB : QueryValue} {status : Option Status} :
    (compareItems texts options comparison itemA itemB context ⟨[], status⟩).clean =
        some ⟨[], none⟩ ↔
      status = none ∧ ItemsAgree comparison itemA itemB context := by
  unfold compareItems ItemsAgree
  split
  · rename_i fields
    change _ ↔ status = none ∧ (comparison.data fields (subqueryValue itemB) context).clean = some ()
    rw [clean_bind, bind_eq_some_iff, <- Report.clean_attempt]
    constructor
    · rintro ⟨failure, attempted, same⟩
      simp only [clean_pure, some_inj, ListState.mk.injEq, true_and, Option.or_eq_none_iff] at same
      rw [same.1] at attempted
      exact ⟨same.2, attempted⟩
    · rintro ⟨rfl, attempted⟩
      exact ⟨none, attempted, rfl⟩
  · simp
  · rw [clean_bind, bind_eq_some_iff, <- clean_compareQueryValues]
    simp only [clean_pure, some_inj, ListState.mk.injEq, true_and]
    constructor
    · rintro ⟨_, compared, none⟩
      exact ⟨none, compared⟩
    · rintro ⟨none, compared⟩
      exact ⟨(), compared, none⟩

lemma clean_compareEntry {state : ListState} {entry : Text × ItemPair} :
    (compareEntry texts options comparison useIndex context state entry).clean =
        some ⟨[], none⟩ ↔
      state = ⟨[], none⟩ ∧ ∃ itemA itemB, entry.2 = ⟨some itemA, some itemB⟩ ∧
        ItemsAgree comparison itemA itemB
          ⟨if useIndex then context.addIndex entry.1 else context.appendProperty entry.1,
            context.uri⟩ := by
  rcases entry with ⟨key, ⟨first, second⟩⟩
  rcases state with ⟨messages, status⟩
  rw [compareEntry]
  simp only [clean_bind, bind_eq_some_iff, clean_checkListItem]
  cases first with
  | none => simp
  | some itemA => cases second with
    | none => simp
    | some itemB => cases messages with
      | nil => simp [clean_compareItems]
      | cons message later => simp

lemma clean_entryLoop (entries : List (Text × ItemPair)) :
    (entries.foldlM (compareEntry texts options comparison useIndex context) ⟨[], none⟩).clean =
        some ⟨[], none⟩ ↔
      ∀ entry ∈ entries, ∃ itemA itemB,
        entry.2 = ⟨some itemA, some itemB⟩ ∧ ItemsAgree comparison itemA itemB
          ⟨if useIndex then context.addIndex entry.1 else context.appendProperty entry.1,
            context.uri⟩ := by
  have only : ∀ state entry,
      (compareEntry texts options comparison useIndex context state entry).clean =
        some ⟨[], none⟩ -> state = ⟨[], none⟩ :=
    fun state entry kept => (clean_compareEntry.mp kept).1
  rw [Report.clean_foldlM, Report.foldlM_eq_good only]
  simp only [clean_compareEntry, true_and]

lemma clean_finishList {state : ListState} :
    (finishList state).clean = some () ↔ state = ⟨[], none⟩ := by
  rcases state with ⟨messages, status⟩
  cases messages with
  | nil => cases status with
    | none => simp [finishList]
    | some status => simp [finishList]
  | cons message later => simp [finishList]

section

variable (distinctA : (itemsA.map Prod.fst).Nodup) (distinctB : (itemsB.map Prod.fst).Nodup)

include distinctA distinctB

lemma mem_itemMap (key : Text) (pair : ItemPair) :
    (key, pair) ∈ (itemMap itemsA itemsB).entries ↔
      ¬ (itemsA.lookup key = none ∧ itemsB.lookup key = none) ∧
        pair = ⟨itemsA.lookup key, itemsB.lookup key⟩ := by
  rw [<- lookup_eq_some_iff_mem (itemMap itemsA itemsB).distinct]
  change (itemMap itemsA itemsB).lookup key = some pair ↔ _
  rw [lookup_itemMap distinctA distinctB]
  split
  · rename_i neither
    exact iff_of_false nofun fun both => both.1 neither
  · rename_i either
    rw [some_inj, eq_comm]
    exact (and_iff_right either).symm

lemma forall_mem_itemMap (agree : Text -> QueryValue -> QueryValue -> Prop) :
    (∀ entry ∈ (itemMap itemsA itemsB).entries,
      ∃ itemA itemB, entry.2 = ⟨some itemA, some itemB⟩ ∧ agree entry.1 itemA itemB) ↔
    ∀ key, (itemsA.lookup key).isSome = (itemsB.lookup key).isSome ∧
      ∀ itemA itemB, itemsA.lookup key = some itemA -> itemsB.lookup key = some itemB ->
        agree key itemA itemB := by
  have found := mem_itemMap distinctA distinctB
  constructor
  · intro all key
    cases lookupA : itemsA.lookup key with
    | none => cases lookupB : itemsB.lookup key with
      | none => exact ⟨rfl, nofun⟩
      | some itemB =>
        rcases all (key, ⟨none, some itemB⟩) ((found _ _).mpr (by simp [lookupA, lookupB])) with
          ⟨_, _, pair, -⟩
        cases pair
    | some itemA => cases lookupB : itemsB.lookup key with
      | none =>
        rcases all (key, ⟨some itemA, none⟩) ((found _ _).mpr (by simp [lookupA, lookupB])) with
          ⟨_, _, pair, -⟩
        cases pair
      | some itemB =>
        rcases all (key, ⟨some itemA, some itemB⟩)
          ((found _ _).mpr (by simp [lookupA, lookupB])) with ⟨_, _, pair, agrees⟩
        cases pair
        refine ⟨rfl, ?_⟩
        rintro _ _ ⟨⟩ ⟨⟩
        exact agrees
  · rintro all ⟨key, pair⟩ inside
    rcases (found key pair).mp inside with ⟨either, rfl⟩
    rcases all key with ⟨both, agrees⟩
    cases lookupA : itemsA.lookup key with
    | none =>
      rw [lookupA] at both either
      cases lookupB : itemsB.lookup key with
      | none => exact (either ⟨rfl, lookupB⟩).elim
      | some itemB =>
        rw [lookupB] at both
        cases both
    | some itemA =>
      rw [lookupA] at both
      cases lookupB : itemsB.lookup key with
      | none =>
        rw [lookupB] at both
        cases both
      | some itemB => exact ⟨itemA, itemB, rfl, agrees itemA itemB lookupA lookupB⟩

end

lemma clean_compareListValues {order : IterationOrder (Text × ItemPair)}
    {valuesA valuesB : List QueryValue} :
    (compareListValues texts options order comparison valuesA valuesB context).clean = some () ↔
      ∃ itemsA itemsB, identify texts comparison.identifiers valuesA = some itemsA ∧
        identify texts comparison.identifiers valuesB = some itemsB ∧
        ∀ key, (itemsA.lookup key).isSome = (itemsB.lookup key).isSome ∧
          ∀ itemA itemB, itemsA.lookup key = some itemA -> itemsB.lookup key = some itemB ->
            ItemsAgree comparison itemA itemB
              ⟨if comparison.identifiers.isEmpty then context.addIndex key
                else context.appendProperty key, context.uri⟩ := by
  have free : ∀ key, isOccupied true ⟨[], nodup_nil⟩ key = false := fun _ => rfl
  rw [compareListValues, clean_bind, clean_addToDataMap, fillMap_identify free]
  cases identifiedA : identify texts comparison.identifiers valuesA with
  | none => simp
  | some itemsA =>
    have distinctA := identify_distinct identifiedA
    rw [map_some, bind_some, clean_bind, clean_addToDataMap,
      fillMap_identify (not_isOccupied_putItems distinctA)]
    cases identifiedB : identify texts comparison.identifiers valuesB with
    | none => simp
    | some itemsB =>
      have distinctB := identify_distinct identifiedB
      rw [map_some, bind_some, clean_bind, bind_eq_some_iff]
      simp only [clean_finishList, exists_eq_right, clean_entryLoop, order.mem_iterate]
      refine (forall_mem_itemMap distinctA distinctB fun key itemA itemB =>
        ItemsAgree comparison itemA itemB
          ⟨if comparison.identifiers.isEmpty then context.addIndex key
            else context.appendProperty key, context.uri⟩).trans ?_
      constructor
      · intro agree
        exact ⟨itemsA, itemsB, rfl, rfl, agree⟩
      · rintro ⟨_, _, ⟨⟩, ⟨⟩, agree⟩
        exact agree

end Ecclesia.Verification
