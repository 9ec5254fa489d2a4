import Ecclesia.Verification.ListRounds
import Ecclesia.Verification.Range

namespace Ecclesia.Verification

open Absl List

/-!
# The order of a list comparison

The items of two lists are compared in the order in which a hash table is iterated.  An item
that is missing on one side is recorded, and from then on no items are compared any more.
Items that differ are recorded, and from then on lists inside the items are not compared any
more.  So what is recorded depends on the order, except where these two things do not matter.
-/

lemma mem_of_keyedItems {tags : List (StatusOr Text × QueryValue)} :
    ∀ {items : List (Text × QueryValue)}, keyedItems tags = some items ->
      ∀ key value, (key, value) ∈ items -> (Except.ok key, value) ∈ tags := by
  induction tags with
  | nil =>
    rintro _ ⟨⟩ key value impossible
    cases impossible
  | cons tag rest ih =>
    rcases tag with ⟨status | present, found⟩
    · rintro _ ⟨⟩
    · intro items keyed key value member
      rw [keyedItems, Option.map_eq_some_iff] at keyed
      rcases keyed with ⟨later, keyed, rfl⟩
      rcases mem_cons.mp member with same | member
      · rcases Prod.mk.inj same with ⟨rfl, rfl⟩
        exact (.head _)
      · exact .tail _ (ih keyed key value member)

variable {key : Text}

section

variable {texts : ValueTexts} {identifiers : List Text} {values : List QueryValue}
  {items : List (Text × QueryValue)}

variable {value : QueryValue}

lemma mem_of_identify (identified : identify texts identifiers values = some items)
    (member : (key, value) ∈ items) :
    value ∈ values ∧
      (identifiers.isEmpty = true ∨ generateIdentifier texts identifiers value = .ok key) := by
  have keyed := (Option.filter_eq_some_iff.mp identified).1
  rcases mem_map.mp (mem_of_keyedItems keyed key value member) with ⟨item, inside, tagged⟩
  rcases Prod.mk.inj tagged with ⟨generated, rfl⟩
  refine ⟨fst_mem_of_mem_zipIdx inside, ?_⟩
  by_cases useIndex : identifiers.isEmpty = true
  · exact .inl useIndex
  · rw [if_neg useIndex] at generated
    exact .inr generated

lemma generateIdentifier_ne_nil (some_ : identifiers.isEmpty = false)
    (generated : generateIdentifier texts identifiers value = .ok key) : key ≠ [] := by
  cases identifiers with
  | nil => cases some_
  | cons identifier rest =>
    unfold generateIdentifier at generated
    split at generated
    · rename_i fields
      rw [identifierValues] at generated
      cases found : fields.lookup identifier with
      | none =>
        rw [found] at generated
        cases generated
      | some part =>
        rw [found] at generated
        cases later : identifierValues texts fields rest with
        | error status =>
          rw [later] at generated
          cases generated
        | ok later' =>
          rw [later] at generated
          cases generated
          have sign : text "=" ≠ [] := by decide
          cases later' with
          | nil => simp [strJoin, sign]
          | cons next more => simp [strJoin, sign]
    · cases generated

lemma itemContext_ne (identified : identify texts identifiers values = some items)
    (context : VerificationContext) (member : (key, value) ∈ items) :
    ¬ (itemContext identifiers.isEmpty context key).path <+: context.path := by
  intro shorter
  have length := shorter.length_le
  cases useIndex : identifiers.isEmpty with
  | true =>
    simp only [itemContext, useIndex, if_true, VerificationContext.addIndex] at length
    split at length
    · simp [List.isEmpty_iff.mp ‹_›, text] at length
    · simp only [length_append] at length
      have bracket : (text "[").length = 1 := rfl
      omega
  | false =>
    have generated := (mem_of_identify identified member).2.resolve_left (by simp [useIndex])
    have positive := length_pos_iff.mpr (generateIdentifier_ne_nil useIndex generated)
    simp only [itemContext, useIndex, Bool.false_eq_true, if_false,
      VerificationContext.appendProperty] at length
    split at length
    · rename_i empty
      rw [List.isEmpty_iff.mp empty, length_nil] at length
      omega
    · rw [length_append, length_append] at length
      omega

end

section

variable (texts : ValueTexts) (options : VerificationOptions)

variable (comparison : ListComparison) (valuesA valuesB : List QueryValue)
  (itemsA itemsB : List (Text × QueryValue)) (context : VerificationContext)

/-- The errors that the comparison of two lists records. -/
def listErrors (order : IterationOrder (Text × ItemPair)) : List ErrorInfo :=
  ((compareListValues texts options order comparison valuesA valuesB context).run []).2

/-- The errors that the comparison of the items with a key records behind others, if both lists
have one. -/
def itemErrors (key : Text) (before : List ErrorInfo) : List ErrorInfo :=
  entryErrors comparison comparison.identifiers.isEmpty context
    (key, ⟨itemsA.lookup key, itemsB.lookup key⟩) before

/-- All items of a list are data sets. -/
def AllSubqueries (values : List QueryValue) : Prop :=
  ∀ value ∈ values, ∃ fields, value = .subquery fields

/-- How the items of two lists are compared along a `ListValueVerification`. -/
def listComparison {Requirement : Type} (validates : QueryValue -> Requirement -> Bool)
    (inner : IterationOrder (Text × ItemPair)) (identifiers : List Text)
    (verify : QueryValueVerification Requirement) : ListComparison :=
  ⟨identifiers, compareData texts options validates inner verify, verify.comparison⟩

section

variable {texts} {comparison : ListComparison} {valuesA valuesB : List QueryValue}
  {itemsA itemsB : List (Text × QueryValue)}
  (identifiedA : identify texts comparison.identifiers valuesA = some itemsA)
  (identifiedB : identify texts comparison.identifiers valuesB = some itemsB)

include identifiedA identifiedB

lemma listErrors_eq (context : VerificationContext) (order : IterationOrder (Text × ItemPair)) :
    listErrors texts options comparison valuesA valuesB context order =
      loopErrors texts options comparison comparison.identifiers.isEmpty context [] none []
        (order.iterate (itemMap itemsA itemsB).entries) := by
  have free : ∀ key, isOccupied true ⟨[], nodup_nil⟩ key = false := fun _ => rfl
  have filledA : (addToDataMap texts comparison.identifiers valuesA options.labelA true
      comparison.identifiers.isEmpty context ⟨[], nodup_nil⟩).run [] =
      (.ok (putItems true ⟨[], nodup_nil⟩ itemsA), []) := by
    rw [<- Report.clean_eq_some, clean_addToDataMap, fillMap_identify free, identifiedA]
    rfl
  have filledB : (addToDataMap texts comparison.identifiers valuesB options.labelB false
      comparison.identifiers.isEmpty context (putItems true ⟨[], nodup_nil⟩ itemsA)).run [] =
      (.ok (itemMap itemsA itemsB), []) := by
    rw [<- Report.clean_eq_some, clean_addToDataMap,
      fillMap_identify (not_isOccupied_putItems (identify_distinct identifiedA)), identifiedB]
    rfl
  rw [listErrors, compareListValues, Report.run_bind_ok filledA, Report.run_bind_ok filledB,
    loopErrors]
  cases ran : ((order.iterate (itemMap itemsA itemsB).entries).foldlM (compareEntry texts options
      comparison comparison.identifiers.isEmpty context) ⟨[], none⟩).run [] with
  | mk outcome errors =>
    cases outcome with
    | error status => rw [Report.run_bind_error ran]
    | ok state =>
      rw [Report.run_bind_ok ran]
      unfold finishList
      split
      · rfl
      · split
        · rfl
        · rfl

variable {entry : Text × ItemPair}

/-- The entries of the map hold data sets, and an entry that is complete holds the items of both
lists. -/
lemma subqueryItems_of_mem (subqueries : AllSubqueries valuesA)
    (member : entry ∈ (itemMap itemsA itemsB).entries) : SubqueryItems entry.2 := by
  intro item present
  rcases (mem_itemMap (identify_distinct identifiedA) (identify_distinct identifiedB) entry.1
    entry.2).mp member with ⟨-, pair⟩
  rw [pair] at present
  have inside := (lookup_eq_some_iff_mem (identify_distinct identifiedA)).mp present
  exact subqueries item (mem_of_identify identifiedA inside).1

lemma mem_entries
    (present : (itemsA.lookup key).isSome = true ∨ (itemsB.lookup key).isSome = true) :
    (key, ⟨itemsA.lookup key, itemsB.lookup key⟩) ∈ (itemMap itemsA itemsB).entries := by
  refine (mem_itemMap (identify_distinct identifiedA) (identify_distinct identifiedB) key _).mpr
    ⟨?_, rfl⟩
  rintro ⟨noneA, noneB⟩
  rw [noneA, noneB] at present
  rcases present with impossible | impossible
  · cases impossible
  · cases impossible

lemma entryErrors_of_mem (context : VerificationContext)
    (member : entry ∈ (itemMap itemsA itemsB).entries) (before : List ErrorInfo) :
    entryErrors comparison comparison.identifiers.isEmpty context entry before =
      itemErrors comparison itemsA itemsB context entry.1 before := by
  rcases entry with ⟨key, pair⟩
  rcases (mem_itemMap (identify_distinct identifiedA) (identify_distinct identifiedB) key
    pair).mp member with ⟨-, rfl⟩
  rfl

lemma entryMessages_of_mem (member : entry ∈ (itemMap itemsA itemsB).entries) :
    entryMessages options comparison.identifiers.isEmpty entry = [] ↔
      (itemsA.lookup entry.1).isSome = (itemsB.lookup entry.1).isSome := by
  rcases entry with ⟨key, pair⟩
  rcases (mem_itemMap (identify_distinct identifiedA) (identify_distinct identifiedB) key
    pair).mp member with ⟨some_, rfl⟩
  rw [entryMessages_eq_nil]
  cases atA : itemsA.lookup key with
  | none =>
    cases atB : itemsB.lookup key with
    | none => exact absurd ⟨atA, atB⟩ some_
    | some itemB => simp
  | some itemA =>
    cases atB : itemsB.lookup key with
    | none => simp
    | some itemB => simp

end

lemma itemErrors_of_absent {comparison : ListComparison} {itemsA itemsB : List (Text × QueryValue)}
    (absent : ¬ ((itemsA.lookup key).isSome = true ∧ (itemsB.lookup key).isSome = true))
    (context : VerificationContext) (before : List ErrorInfo) :
    itemErrors comparison itemsA itemsB context key before = before := by
  rw [itemErrors, entryErrors, itemCheck]
  split
  · rename_i atA atB
    refine absurd ⟨?_, ?_⟩ absent
    · exact Option.isSome_of_eq_some atA
    · exact Option.isSome_of_eq_some atB
  · rfl

/-- Every order leads to the same errors, and to all errors of items that are on both sides. -/
def RecordsAllDifferences : Prop :=
  (∀ order other error,
    error ∈ listErrors texts options comparison valuesA valuesB context order ↔
      error ∈ listErrors texts options comparison valuesA valuesB context other) ∧
  ∀ order key error, error ∈ itemErrors comparison itemsA itemsB context key [] ->
    error ∈ listErrors texts options comparison valuesA valuesB context order

/-- If an item is missing, the items on both sides do not differ; and where items differ, each error
of other items is recorded behind theirs. -/
def NoDifferenceHides : Prop :=
  ((∃ key, (itemsA.lookup key).isSome ≠ (itemsB.lookup key).isSome) ->
    ∀ key, itemErrors comparison itemsA itemsB context key [] = []) ∧
  ∀ first, itemErrors comparison itemsA itemsB context first [] ≠ [] ->
    ∀ key error, error ∈ itemErrors comparison itemsA itemsB context key [] ->
      ∃ other, error ∈ itemErrors comparison itemsA itemsB context other
        (itemErrors comparison itemsA itemsB context first [])

variable {texts options} {comparison : ListComparison} {valuesA valuesB : List QueryValue}
  {itemsA itemsB : List (Text × QueryValue)}
  (recorded : ∀ valueA valueB context, Recorded context (comparison.data valueA valueB context))
  (subqueries : AllSubqueries valuesA)
  (identifiedA : identify texts comparison.identifiers valuesA = some itemsA)
  (identifiedB : identify texts comparison.identifiers valuesB = some itemsB)
  (context : VerificationContext)

include recorded subqueries identifiedA identifiedB

omit subqueries identifiedB in
lemma path_of_mem_itemErrors {error : ErrorInfo}
    (member : error ∈ itemErrors comparison itemsA itemsB context key []) :
    error.path ≠ context.path := by
  intro same
  by_cases present : (itemsA.lookup key).isSome = true ∧ (itemsB.lookup key).isSome = true
  · rcases Option.isSome_iff_exists.mp present.1 with ⟨itemA, atA⟩
    have inside := (lookup_eq_some_iff_mem (identify_distinct identifiedA)).mp atA
    have check := recorded_itemCheck comparison comparison.identifiers.isEmpty context recorded key
      ⟨itemsA.lookup key, itemsB.lookup key⟩
    have below := (check.below [] error member).resolve_left not_mem_nil
    exact itemContext_ne identifiedA context inside (same ▸ below)
  · rw [itemErrors_of_absent present] at member
    cases member

section

variable
  (records : RecordsAllDifferences texts options comparison valuesA valuesB itemsA itemsB context)

include records

lemma silent_of_missing
    {missing : Text} (oneSided : (itemsA.lookup missing).isSome ≠ (itemsB.lookup missing).isSome)
    (key : Text) : itemErrors comparison itemsA itemsB context key [] = [] := by
  apply eq_nil_iff_forall_not_mem.mpr
  intro error member
  have either : (itemsA.lookup missing).isSome = true ∨ (itemsB.lookup missing).isSome = true := by
    by_contra neither
    rw [not_or, Bool.not_eq_true, Bool.not_eq_true] at neither
    exact oneSided (neither.1.trans neither.2.symm)
  -- The order in which the missing item comes first.
  rcases IterationOrder.exists_preferred (fun entry => entry.1 == missing)
    (mem_entries identifiedA identifiedB either) (beq_self_eq_true missing) with
    ⟨first, rest, iterated, isMissing⟩
  have inside : ∀ entry ∈ first :: rest, entry ∈ (itemMap itemsA itemsB).entries := by
    intro entry member
    rw [<- iterated] at member
    exact (IterationOrder.mem_iterate _).mp member
  have recorded_ := records.2 (.preferring fun entry => entry.1 == missing) key error member
  rw [listErrors_eq options identifiedA identifiedB, iterated] at recorded_
  refine path_of_mem_itemErrors recorded identifiedA context member ?_
  refine path_of_missing_first texts options comparison _ context recorded
    (fun entry member => subqueryItems_of_mem identifiedA identifiedB subqueries
      (inside entry member)) ?_ none recorded_
  intro complete
  have same := (entryMessages_of_mem options identifiedA identifiedB
    (inside first (.head _))).mp complete
  rw [eq_of_beq isMissing] at same
  exact oneSided same

lemma noDifferenceHides_of_records :
    NoDifferenceHides comparison itemsA itemsB context := by
  have silent := fun missing (oneSided : (itemsA.lookup missing).isSome ≠
      (itemsB.lookup missing).isSome) =>
    silent_of_missing recorded subqueries identifiedA identifiedB context records oneSided
  refine ⟨fun ⟨missing, oneSided⟩ => silent missing oneSided, ?_⟩
  intro first differs key error member
  have complete : ∀ key, (itemsA.lookup key).isSome = (itemsB.lookup key).isSome := by
    intro key
    by_contra oneSided
    exact differs (silent key oneSided first)
  have present : (itemsA.lookup first).isSome = true := by
    by_contra absent
    exact differs (itemErrors_of_absent (fun both => absent both.1) context [])
  -- The order in which the items that differ come first.
  rcases IterationOrder.exists_preferred (fun entry => entry.1 == first)
    (mem_entries identifiedA identifiedB (.inl present)) (beq_self_eq_true first) with
    ⟨entry, rest, iterated, isFirst⟩
  have inside : ∀ other ∈ entry :: rest, other ∈ (itemMap itemsA itemsB).entries := by
    intro other member
    rw [<- iterated] at member
    exact (IterationOrder.mem_iterate _).mp member
  have errors := fun (other : Text × ItemPair) (member : other ∈ entry :: rest) =>
    entryErrors_of_mem identifiedA identifiedB context (inside other member)
  have own := errors entry (.head _)
  rw [eq_of_beq isFirst] at own
  have found := records.2 (.preferring fun entry => entry.1 == first) key error member
  rw [listErrors_eq options identifiedA identifiedB, iterated,
    mem_loopErrors_first texts options comparison _ context recorded
      (fun other member => ⟨subqueryItems_of_mem identifiedA identifiedB subqueries
          (inside other member),
        (entryMessages_of_mem options identifiedA identifiedB
          (inside other member)).mpr (complete other.1)⟩)
      (by rw [own]; exact differs), own] at found
  rcases found with found | ⟨other, isOther, found⟩
  · refine ⟨first, ?_⟩
    exact ((itemCheck comparison _ context first _).grows _).subset found
  · refine ⟨other.1, ?_⟩
    rw [errors other (mem_cons_of_mem entry isOther)] at found
    exact found

end

lemma records_of_noDifferenceHides (clear : NoDifferenceHides comparison itemsA itemsB context) :
    RecordsAllDifferences texts options comparison valuesA valuesB itemsA itemsB context := by
  have inEntries := fun (order : IterationOrder (Text × ItemPair)) (entry : Text × ItemPair)
      (member : entry ∈ order.iterate (itemMap itemsA itemsB).entries) =>
    order.mem_iterate.mp member
  have subqueryItems := fun (order : IterationOrder (Text × ItemPair)) (entry : Text × ItemPair)
      (member : entry ∈ order.iterate (itemMap itemsA itemsB).entries) =>
    subqueryItems_of_mem identifiedA identifiedB subqueries (inEntries order entry member)
  have errors := fun (order : IterationOrder (Text × ItemPair)) (entry : Text × ItemPair)
      (member : entry ∈ order.iterate (itemMap itemsA itemsB).entries) =>
    entryErrors_of_mem identifiedA identifiedB context (inEntries order entry member)
  by_cases someMissing : ∃ key, (itemsA.lookup key).isSome ≠ (itemsB.lookup key).isSome
  · have silent := clear.1 someMissing
    have recordedOnly : ∀ order,
        listErrors texts options comparison valuesA valuesB context order =
          ((order.iterate (itemMap itemsA itemsB).entries).flatMap (entryMessages options
            comparison.identifiers.isEmpty)).map (errorAt context) := by
      intro order
      rw [listErrors_eq options identifiedA identifiedB, loopErrors_silent texts options comparison _
        context recorded _ (subqueryItems order) [] none [] (.inr ?_), nil_append]
      intro entry member
      rw [errors order entry member]
      exact silent entry.1
    constructor
    · intro order other error
      rw [recordedOnly, recordedOnly]
      simp only [mem_map, mem_flatMap, IterationOrder.mem_iterate]
    · intro order key error member
      rw [silent] at member
      cases member
  · have paired : ∀ order : IterationOrder (Text × ItemPair),
        Paired options comparison.identifiers.isEmpty
          (order.iterate (itemMap itemsA itemsB).entries) := by
      intro order entry member
      refine ⟨subqueryItems order entry member, ?_⟩
      refine (entryMessages_of_mem options identifiedA identifiedB
        (inEntries order entry member)).mpr ?_
      by_contra oneSided
      exact someMissing ⟨entry.1, oneSided⟩
    have present : ∀ (order : IterationOrder (Text × ItemPair)) key,
        (itemsA.lookup key).isSome = true ->
        (key, ⟨itemsA.lookup key, itemsB.lookup key⟩) ∈
          order.iterate (itemMap itemsA itemsB).entries :=
      fun order key some_ =>
        order.mem_iterate.mpr (mem_entries identifiedA identifiedB (.inl some_))
    have all : ∀ order key error,
        error ∈ itemErrors comparison itemsA itemsB context key [] ->
          error ∈ listErrors texts options comparison valuesA valuesB context order := by
      intro order key error member
      have some_ : (itemsA.lookup key).isSome = true := by
        by_contra absent
        rw [itemErrors_of_absent fun both => absent both.1] at member
        cases member
      rw [listErrors_eq options identifiedA identifiedB]
      refine mem_loopErrors_of_mem texts options comparison _ context recorded (paired order) ?_ none
        _ error (present order key some_) member
      intro first isFirst differs other error isOther member
      rw [errors order first isFirst] at differs ⊢
      rw [errors order other isOther] at member
      rcases clear.2 first.1 differs other.1 error member with ⟨third, found⟩
      by_cases thirdSome : (itemsA.lookup third).isSome = true
      · exact ⟨_, present order third thirdSome, found⟩
      · rw [itemErrors_of_absent fun both => thirdSome both.1] at found
        refine ⟨first, isFirst, ?_⟩
        exact ((itemCheck comparison _ context first.1 first.2).grows _).subset found
    refine ⟨?_, all⟩
    have subset : ∀ order other error,
        error ∈ listErrors texts options comparison valuesA valuesB context order ->
          error ∈ listErrors texts options comparison valuesA valuesB context other := by
      intro order other error member
      rw [listErrors_eq options identifiedA identifiedB] at member
      rcases mem_of_mem_loopErrors texts options comparison _ context recorded (paired order) none
        error member with ⟨entry, inside, found⟩
      rw [errors order entry inside] at found
      exact all other entry.1 error found
    exact fun order other error => ⟨subset order other error, subset other order error⟩

end

/-- The comparison of two lists of data sets records the same errors in every order, and all errors
of items that are on both sides, exactly if no difference can hide another one. -/
theorem compareListValues_records_iff :
    ∀ {Requirement : Type} (texts : ValueTexts) (options : VerificationOptions)
        (validates : QueryValue -> Requirement -> Bool) (inner : IterationOrder (Text × ItemPair))
        (identifiers : List Text) (verify : QueryValueVerification Requirement)
        (valuesA valuesB : List QueryValue) (itemsA itemsB : List (Text × QueryValue))
        (context : VerificationContext),
      AllSubqueries valuesA -> AllSubqueries valuesB ->
      identify texts identifiers valuesA = some itemsA ->
      identify texts identifiers valuesB = some itemsB ->
      (RecordsAllDifferences texts options
          (listComparison texts options validates inner identifiers verify)
          valuesA valuesB itemsA itemsB context ↔
        NoDifferenceHides (listComparison texts options validates inner identifiers verify)
          itemsA itemsB context) := by
  intro Requirement texts options validates inner identifiers verify valuesA valuesB itemsA itemsB
    context subqueries _ identifiedA identifiedB
  have recorded := recorded_compareData texts options validates inner verify
  constructor
  · exact noDifferenceHides_of_records recorded subqueries identifiedA identifiedB context
  · exact records_of_noDifferenceHides recorded subqueries identifiedA identifiedB context

/-- The speeds of items are to be equal. -/
def speedVerification : QueryValueVerification Unit :=
  .mk (.dataCompare [(text "Speed", .mk (.verify .equal) [])]) []

/-- Items with a speed each. -/
def speeds (values : List Int) : List QueryValue :=
  values.map fun value => .subquery [(text "Speed", .int value)]

/-- The items with their keys. -/
def speedItems (values : List Int) : List (Text × QueryValue) :=
  (speeds values).zipIdx.map fun item => (strCatNat item.2, item.1)

lemma allSubqueries_speeds (values : List Int) : AllSubqueries (speeds values) := by
  intro item member
  rcases mem_map.mp member with ⟨value, -, rfl⟩
  exact ⟨_, rfl⟩

/-- The items are compared by their speeds. -/
def speedComparison : ListComparison :=
  listComparison emptyTexts {} (fun _ _ => false) (.listed _) [] speedVerification

/-- For two lists of two items. -/
theorem compareListValues_records_speeds :
    AllSubqueries (speeds [1, 2]) ∧ AllSubqueries (speeds [1, 3]) ∧
      identify emptyTexts [] (speeds [1, 2]) = some (speedItems [1, 2]) ∧
      identify emptyTexts [] (speeds [1, 3]) = some (speedItems [1, 3]) ∧
      (RecordsAllDifferences emptyTexts {} speedComparison (speeds [1, 2]) (speeds [1, 3])
          (speedItems [1, 2]) (speedItems [1, 3]) {} ↔
        NoDifferenceHides speedComparison (speedItems [1, 2]) (speedItems [1, 3]) {}) := by
  have first := allSubqueries_speeds [1, 2]
  have second := allSubqueries_speeds [1, 3]
  refine ⟨first, second, rfl, rfl, ?_⟩
  exact compareListValues_records_iff emptyTexts {} (fun _ _ => false) (.listed _) []
    speedVerification _ _ _ _ {} first second rfl rfl

/-- If the second item is missing and comes first, the difference of the first ones is not recorded.
-/
theorem compareListValues_hides_difference :
    AllSubqueries (speeds [1, 2]) ∧ AllSubqueries (speeds [3]) ∧
      identify emptyTexts [] (speeds [1, 2]) = some (speedItems [1, 2]) ∧
      identify emptyTexts [] (speeds [3]) = some (speedItems [3]) ∧
      ¬ RecordsAllDifferences emptyTexts {} speedComparison (speeds [1, 2]) (speeds [3])
        (speedItems [1, 2]) (speedItems [3]) {} := by
  refine ⟨allSubqueries_speeds [1, 2], allSubqueries_speeds [3], rfl, rfl, ?_⟩
  rintro ⟨sameErrors, -⟩
  have reversed : (listErrors emptyTexts {} speedComparison (speeds [1, 2]) (speeds [3]) {}
      (.reversed _)).map ErrorInfo.path = [[]] := by decide +kernel
  have inListed : text "[0].Speed" ∈ (listErrors emptyTexts {} speedComparison (speeds [1, 2])
      (speeds [3]) {} (.listed _)).map ErrorInfo.path := by
    exact (.head _)
  rcases List.mem_map.mp inListed with ⟨error, recorded, path⟩
  have inReversed := List.mem_map_of_mem (f := ErrorInfo.path)
    ((sameErrors (.listed _) (.reversed _) error).mp recorded)
  rw [path] at inReversed
  exact absurd inReversed (by decide)

end Ecclesia.Verification
