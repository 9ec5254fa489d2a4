import Ecclesia.Verification.Clean

namespace Ecclesia.Verification

open Absl

/-!
# Symmetry of comparisons

A comparison should not depend on which of two results comes first.  The code looks
at the kind of the first value only and reads the second one as if it were of the
same kind; what is not of that kind is read as empty.  Here the differences that the
code reports are described place by place, and the places where two kinds clash.
-/

section

variable {Requirement : Type}

namespace QueryValueVerification

def dataCompare : QueryValueVerification Requirement ->
    List (Text × QueryValueVerification Requirement)
  | .mk (.dataCompare fields) _ => fields
  | _ => []

def identifiers : QueryValueVerification Requirement -> List Text
  | .mk (.listCompare identifiers _) _ => identifiers
  | _ => []

def itemVerification : QueryValueVerification Requirement -> QueryValueVerification Requirement
  | .mk (.listCompare _ verify) _ => verify
  | _ => .mk .notSet []

end QueryValueVerification

mutual

def PlainFields : List (Text × QueryValueVerification Requirement) -> Prop
  | [] => True
  | (_, operations) :: rest => Plain operations ∧ PlainFields rest

def Plain : QueryValueVerification Requirement -> Prop
  | .mk kind overrides => overrides = [] ∧ PlainKind kind

def PlainKind : VerificationKind Requirement -> Prop
  | .notSet => True
  | .verify _ => True
  | .listCompare _ verify => Plain verify
  | .dataCompare fields => PlainFields fields

end

/-- A place where a comparison arrives, with the verification for it. -/
inductive Place (Requirement : Type) where
  | data (fields : List (Text × QueryValueVerification Requirement))
      (valueA valueB : QueryResultData)
  | field (operations : QueryValueVerification Requirement) (valueA valueB : QueryValue)
  | items (identifiers : List Text) (verify : QueryValueVerification Requirement)
      (valuesA valuesB : List QueryValue)
  | item (verify : QueryValueVerification Requirement) (valueA valueB : QueryValue)

/-- The same place with the results exchanged. -/
def Place.swap : Place Requirement -> Place Requirement
  | .data fields valueA valueB => .data fields valueB valueA
  | .field operations valueA valueB => .field operations valueB valueA
  | .items identifiers verify valuesA valuesB => .items identifiers verify valuesB valuesA
  | .item verify valueA valueB => .item verify valueB valueA

/-- A difference that is reported: something is missing on one side, an item has no key of its own,
a list is inside a list, or scalar values do not agree. A value of another kind counts as an empty
data set or list. -/
inductive Differs (texts : ValueTexts) : Place Requirement -> Prop where
  | missing {fields property operations valueA valueB} (member : (property, operations) ∈ fields)
      (oneSided : (List.lookup property valueA).isSome ≠ (List.lookup property valueB).isSome) :
      Differs texts (.data fields valueA valueB)
  | inField {fields property operations valueA valueB fieldA fieldB}
      (member : (property, operations) ∈ fields) (atA : List.lookup property valueA = some fieldA)
      (atB : List.lookup property valueB = some fieldB)
      (differs : Differs texts (.field operations fieldA fieldB)) :
      Differs texts (.data fields valueA valueB)
  | fieldData {operations fields other}
      (differs : Differs texts (.data operations.dataCompare fields (subqueryValue other))) :
      Differs texts (.field operations (.subquery fields) other)
  | fieldList {operations values other}
      (differs : Differs texts (.items operations.identifiers operations.itemVerification values
        (listValue other))) :
      Differs texts (.field operations (.list values) other)
  | fieldScalar {operations valueA valueB} (scalar : isComposite valueA = false)
      (disagree : ¬ Agrees operations.comparison valueA valueB) :
      Differs texts (.field operations valueA valueB)
  | unidentified {identifiers verify valuesA valuesB}
      (none : identify texts identifiers valuesA = none ∨ identify texts identifiers valuesB = none) :
      Differs texts (.items identifiers verify valuesA valuesB)
  | missingItem {identifiers verify valuesA valuesB itemsA itemsB key}
      (ofA : identify texts identifiers valuesA = some itemsA)
      (ofB : identify texts identifiers valuesB = some itemsB)
      (oneSided : (List.lookup key itemsA).isSome ≠ (List.lookup key itemsB).isSome) :
      Differs texts (.items identifiers verify valuesA valuesB)
  | inItem {identifiers verify valuesA valuesB itemsA itemsB key itemA itemB}
      (ofA : identify texts identifiers valuesA = some itemsA)
      (ofB : identify texts identifiers valuesB = some itemsB)
      (atA : List.lookup key itemsA = some itemA) (atB : List.lookup key itemsB = some itemB)
      (differs : Differs texts (.item verify itemA itemB)) :
      Differs texts (.items identifiers verify valuesA valuesB)
  | nested {verify values other} : Differs texts (.item verify (.list values) other)
  | itemData {verify fields other}
      (differs : Differs texts (.data verify.dataCompare fields (subqueryValue other))) :
      Differs texts (.item verify (.subquery fields) other)
  | itemScalar {verify valueA valueB} (scalar : isComposite valueA = false)
      (disagree : ¬ Agrees verify.comparison valueA valueB) :
      Differs texts (.item verify valueA valueB)

/-- A data set or a list is compared with a value of another kind. -/
def Mixed (valueA valueB : QueryValue) : Prop :=
  kindCase valueA ≠ kindCase valueB ∧ (isComposite valueA = true ∨ isComposite valueB = true)

/-- The comparison comes to a field or an item where the kinds are mixed. -/
inductive Clashes (texts : ValueTexts) : Place Requirement -> Prop where
  | inField {fields property operations valueA valueB fieldA fieldB}
      (member : (property, operations) ∈ fields) (atA : List.lookup property valueA = some fieldA)
      (atB : List.lookup property valueB = some fieldB)
      (clashes : Clashes texts (.field operations fieldA fieldB)) :
      Clashes texts (.data fields valueA valueB)
  | field {operations valueA valueB} (mixed : Mixed valueA valueB) :
      Clashes texts (.field operations valueA valueB)
  | fieldData {operations fieldsA fieldsB}
      (clashes : Clashes texts (.data operations.dataCompare fieldsA fieldsB)) :
      Clashes texts (.field operations (.subquery fieldsA) (.subquery fieldsB))
  | fieldList {operations valuesA valuesB}
      (clashes : Clashes texts (.items operations.identifiers operations.itemVerification
        valuesA valuesB)) :
      Clashes texts (.field operations (.list valuesA) (.list valuesB))
  | inItem {identifiers verify valuesA valuesB itemsA itemsB key itemA itemB}
      (ofA : identify texts identifiers valuesA = some itemsA)
      (ofB : identify texts identifiers valuesB = some itemsB)
      (atA : List.lookup key itemsA = some itemA) (atB : List.lookup key itemsB = some itemB)
      (clashes : Clashes texts (.item verify itemA itemB)) :
      Clashes texts (.items identifiers verify valuesA valuesB)
  | item {verify valueA valueB} (mixed : Mixed valueA valueB) :
      Clashes texts (.item verify valueA valueB)
  | itemData {verify fieldsA fieldsB}
      (clashes : Clashes texts (.data verify.dataCompare fieldsA fieldsB)) :
      Clashes texts (.item verify (.subquery fieldsA) (.subquery fieldsB))

lemma Mixed.swap {valueA valueB : QueryValue} (mixed : Mixed valueA valueB) : Mixed valueB valueA :=
  ⟨mixed.1.symm, mixed.2.symm⟩

variable {texts : ValueTexts}

lemma Clashes.swap {place : Place Requirement}
    (clashes : Clashes texts place) : Clashes texts place.swap := by
  induction clashes with
  | inField member atA atB _ ih => exact .inField member atB atA ih
  | field mixed => exact .field mixed.swap
  | fieldData _ ih => exact .fieldData ih
  | fieldList _ ih => exact .fieldList ih
  | inItem ofA ofB atA atB _ ih => exact .inItem ofB ofA atB atA ih
  | item mixed => exact .item mixed.swap
  | itemData _ ih => exact .itemData ih

lemma subquery_of_not_mixed {fields : QueryResultData} {other : QueryValue}
    (plain : ¬ Mixed (.subquery fields) other) : ∃ others, other = .subquery others := by
  cases other with
  | subquery others => exact ⟨others, rfl⟩
  | _ => exact (plain ⟨nofun, .inl rfl⟩).elim

lemma list_of_not_mixed {values : List QueryValue} {other : QueryValue}
    (plain : ¬ Mixed (.list values) other) : ∃ others, other = .list others := by
  cases other with
  | list others => exact ⟨others, rfl⟩
  | _ => exact (plain ⟨nofun, .inl rfl⟩).elim

lemma scalar_of_not_mixed {valueA valueB : QueryValue} (scalar : isComposite valueA = false)
    (plain : ¬ Mixed valueA valueB) : isComposite valueB = false := by
  cases composite : isComposite valueB with
  | false => rfl
  | true =>
    refine (plain ⟨?_, .inr composite⟩).elim
    intro same
    cases valueB with
    | subquery fields => cases valueA <;> cases same; cases scalar
    | list values => cases valueA <;> cases same; cases scalar
    | _ => cases composite

lemma Differs.swap {place : Place Requirement}
    (differs : Differs texts place) : ¬ Clashes texts place -> Differs texts place.swap := by
  induction differs with
  | missing member oneSided => exact fun _ => .missing member oneSided.symm
  | inField member atA atB _ ih =>
    intro plain
    exact .inField member atB atA (ih fun clashes => plain (.inField member atA atB clashes))
  | fieldData _ ih =>
    intro plain
    rcases subquery_of_not_mixed fun mixed => plain (.field mixed) with ⟨others, rfl⟩
    exact .fieldData (ih fun clashes => plain (.fieldData clashes))
  | fieldList _ ih =>
    intro plain
    rcases list_of_not_mixed fun mixed => plain (.field mixed) with ⟨others, rfl⟩
    exact .fieldList (ih fun clashes => plain (.fieldList clashes))
  | fieldScalar scalar disagree =>
    intro plain
    exact .fieldScalar (scalar_of_not_mixed scalar fun mixed => plain (.field mixed))
      fun agrees => disagree agrees.swap
  | unidentified none => exact fun _ => .unidentified none.symm
  | missingItem ofA ofB oneSided => exact fun _ => .missingItem ofB ofA oneSided.symm
  | inItem ofA ofB atA atB _ ih =>
    intro plain
    exact .inItem ofB ofA atB atA (ih fun clashes => plain (.inItem ofA ofB atA atB clashes))
  | nested =>
    intro plain
    rcases list_of_not_mixed fun mixed => plain (.item mixed) with ⟨others, rfl⟩
    exact .nested
  | itemData _ ih =>
    intro plain
    rcases subquery_of_not_mixed fun mixed => plain (.item mixed) with ⟨others, rfl⟩
    exact .itemData (ih fun clashes => plain (.itemData clashes))
  | itemScalar scalar disagree =>
    intro plain
    exact .itemScalar (scalar_of_not_mixed scalar fun mixed => plain (.item mixed))
      fun agrees => disagree agrees.swap

lemma not_differs_nil {valueA valueB : QueryResultData} :
    ¬ Differs texts (.data ([] : List (Text × QueryValueVerification Requirement)) valueA valueB) := by
  rintro (⟨member, -⟩ | ⟨member, -⟩)
  · exact nomatch member
  · exact nomatch member

lemma differs_cons {property : Text} {operations : QueryValueVerification Requirement}
    {rest : List (Text × QueryValueVerification Requirement)} {valueA valueB : QueryResultData} :
    Differs texts (.data ((property, operations) :: rest) valueA valueB) ↔
      (List.lookup property valueA).isSome ≠ (List.lookup property valueB).isSome ∨
      (∃ fieldA fieldB, List.lookup property valueA = some fieldA ∧
        List.lookup property valueB = some fieldB ∧
        Differs texts (.field operations fieldA fieldB)) ∨
      Differs texts (.data rest valueA valueB) := by
  constructor
  · intro differs
    cases differs with
    | missing member oneSided =>
      cases member with
      | head => exact .inl oneSided
      | tail _ member => exact .inr (.inr (.missing member oneSided))
    | inField member atA atB differs =>
      cases member with
      | head => exact .inr (.inl ⟨_, _, atA, atB, differs⟩)
      | tail _ member => exact .inr (.inr (.inField member atA atB differs))
  · rintro (oneSided | ⟨fieldA, fieldB, atA, atB, differs⟩ | differs)
    · exact .missing (.head _) oneSided
    · exact .inField (.head _) atA atB differs
    · cases differs with
      | missing member oneSided => exact .missing (.tail _ member) oneSided
      | inField member atA atB differs =>
        exact .inField (.tail _ member) atA atB differs

variable {verify : QueryValueVerification Requirement}

lemma differs_items {identifiers : List Text} {valuesA valuesB : List QueryValue} :
    ¬ Differs texts (.items identifiers verify valuesA valuesB) ↔
      ∃ itemsA itemsB, identify texts identifiers valuesA = some itemsA ∧
        identify texts identifiers valuesB = some itemsB ∧
        ∀ key, (itemsA.lookup key).isSome = (itemsB.lookup key).isSome ∧
          ∀ itemA itemB, itemsA.lookup key = some itemA -> itemsB.lookup key = some itemB ->
            ¬ Differs texts (.item verify itemA itemB) := by
  constructor
  · intro same
    cases ofA : identify texts identifiers valuesA with
    | none => exact (same (.unidentified (.inl ofA))).elim
    | some itemsA => cases ofB : identify texts identifiers valuesB with
      | none => exact (same (.unidentified (.inr ofB))).elim
      | some itemsB =>
        refine ⟨itemsA, itemsB, rfl, rfl, fun key => ⟨?_, ?_⟩⟩
        · by_contra oneSided
          exact same (.missingItem ofA ofB oneSided)
        · intro itemA itemB atA atB differs
          exact same (.inItem ofA ofB atA atB differs)
  · rintro ⟨itemsA, itemsB, ofA, ofB, agree⟩ differs
    cases differs with
    | unidentified none =>
      rcases none with none | none
      · rw [ofA] at none
        cases none
      · rw [ofB] at none
        cases none
    | missingItem ofA' ofB' oneSided =>
      rw [ofA] at ofA'
      rw [ofB] at ofB'
      cases ofA'
      cases ofB'
      exact oneSided (agree _).1
    | inItem ofA' ofB' atA atB differs =>
      rw [ofA] at ofA'
      rw [ofB] at ofB'
      cases ofA'
      cases ofB'
      exact (agree _).2 _ _ atA atB differs

variable {context : VerificationContext}

lemma itemsAgree_iff {comparison : ListComparison}
    (scalars : comparison.comparison = verify.comparison)
    (data : ∀ valueA valueB context, (comparison.data valueA valueB context).clean = some () ↔
      ¬ Differs texts (.data verify.dataCompare valueA valueB)) {itemA itemB : QueryValue} :
    ItemsAgree comparison itemA itemB context ↔ ¬ Differs texts (.item verify itemA itemB) := by
  have scalar : isComposite itemA = false ->
      (Agrees comparison.comparison itemA itemB ↔ ¬ Differs texts (.item verify itemA itemB)) := by
    intro isScalar
    rw [scalars]
    constructor
    · intro agrees differs
      cases differs with
      | nested => cases isScalar
      | itemData differs => cases isScalar
      | itemScalar _ disagree => exact disagree agrees
    · intro same
      by_contra disagree
      exact same (.itemScalar isScalar disagree)
  cases itemA with
  | subquery fields =>
    refine (data fields (subqueryValue itemB) context).trans (not_congr ⟨.itemData, ?_⟩)
    intro differs
    cases differs with
    | itemData differs => exact differs
    | itemScalar scalar => cases scalar
  | list values => exact iff_of_false id fun same => same .nested
  | _ => exact scalar rfl

lemma clean_compareByKind {options : VerificationOptions}
    {order : IterationOrder (Text × ItemPair)} {data : DataComparison} {list : ListComparison}
    (operations : QueryValueVerification Requirement)
    (dataClean : ∀ valueA valueB context, (data valueA valueB context).clean = some () ↔
      ¬ Differs texts (.data operations.dataCompare valueA valueB))
    (keys : list.identifiers = operations.identifiers)
    (itemScalars : list.comparison = operations.itemVerification.comparison)
    (itemData : ∀ valueA valueB context, (list.data valueA valueB context).clean = some () ↔
      ¬ Differs texts (.data operations.itemVerification.dataCompare valueA valueB))
    {fieldA fieldB : QueryValue} :
    (compareByKind texts options order data list operations.comparison fieldA fieldB context).clean =
        some () ↔
      ¬ Differs texts (.field operations fieldA fieldB) := by
  have scalar : isComposite fieldA = false ->
      (Agrees operations.comparison fieldA fieldB ↔
        ¬ Differs texts (.field operations fieldA fieldB)) := by
    intro isScalar
    constructor
    · intro agrees differs
      cases differs with
      | fieldData differs => cases isScalar
      | fieldList differs => cases isScalar
      | fieldScalar _ disagree => exact disagree agrees
    · intro same
      by_contra disagree
      exact same (.fieldScalar isScalar disagree)
  cases fieldA with
  | subquery fields =>
    refine (dataClean fields (subqueryValue fieldB) context).trans (not_congr ⟨.fieldData, ?_⟩)
    intro differs
    cases differs with
    | fieldData differs => exact differs
    | fieldScalar scalar => cases scalar
  | list values =>
    have whole : Differs texts (.field operations (.list values) fieldB) ↔
        Differs texts (.items operations.identifiers operations.itemVerification values
          (listValue fieldB)) := by
      refine ⟨?_, .fieldList⟩
      intro differs
      cases differs with
      | fieldList differs => exact differs
      | fieldScalar scalar => cases scalar
    rw [whole, differs_items]
    apply clean_compareListValues.trans
    simp only [keys, itemsAgree_iff itemScalars itemData]
  | _ => exact clean_compareQueryValues.trans (scalar rfl)

lemma clean_compareNothing (valueA valueB : QueryResultData) (context : VerificationContext) :
    (compareNothing valueA valueB context).clean = some () ↔
      ¬ Differs texts (.data ([] : List (Text × QueryValueVerification Requirement)) valueA valueB) :=
  iff_of_true rfl not_differs_nil

section

variable (texts : ValueTexts) (options : VerificationOptions)
  (validates : QueryValue -> Requirement -> Bool) (order : IterationOrder (Text × ItemPair))

mutual

theorem clean_compareFields (fields : List (Text × QueryValueVerification Requirement))
    (plain : PlainFields fields) (valueA valueB : QueryResultData) (context : VerificationContext) :
    (compareFields texts options validates order fields valueA valueB context).clean = some () ↔
      ¬ Differs texts (.data fields valueA valueB) := by
  match fields, plain with
  | [], _ => exact iff_of_true (by rw [compareFields, Report.clean_pure]) not_differs_nil
  | (property, operations) :: rest, plain =>
    have first := clean_compareOperations operations plain.1 valueA valueB
    have later := clean_compareFields rest plain.2 valueA valueB context
    rw [compareFields, Report.clean_bind, Option.bind_eq_some_iff, differs_cons, not_or, not_or,
      <- later]
    cases atA : List.lookup property valueA with
    | none => cases atB : List.lookup property valueB with
      | none => simp
      | some fieldB => simp [addError]
    | some fieldA => cases atB : List.lookup property valueB with
      | none => simp [addError]
      | some fieldB =>
        have here := first fieldA fieldB ⟨context.appendProperty property, context.uri⟩
        simp [here]

theorem clean_compareOperations (operations : QueryValueVerification Requirement)
    (plain : Plain operations) (valueA valueB : QueryResultData) (fieldA fieldB : QueryValue)
    (context : VerificationContext) :
    (compareOperations texts options validates order operations valueA valueB fieldA fieldB
        context).clean = some () ↔
      ¬ Differs texts (.field operations fieldA fieldB) := by
  match operations, plain with
  | .mk kind overrides, plain =>
    rcases plain with ⟨rfl, plainKind⟩
    match kind, plainKind with
    | .notSet, _ =>
      exact clean_compareByKind (.mk .notSet []) clean_compareNothing rfl rfl clean_compareNothing
    | .verify comparison, _ =>
      exact clean_compareByKind (.mk (.verify comparison) []) clean_compareNothing rfl rfl
        clean_compareNothing
    | .listCompare identifiers verify, plainKind =>
      exact clean_compareByKind (.mk (.listCompare identifiers verify) []) clean_compareNothing
        rfl rfl (clean_compareData verify plainKind)
    | .dataCompare fields, plainKind =>
      exact clean_compareByKind (.mk (.dataCompare fields) []) (fun valueA valueB context =>
          clean_compareFields fields plainKind valueA valueB (annotate valueA valueB context))
        rfl rfl clean_compareNothing

theorem clean_compareData (verify : QueryValueVerification Requirement) (plain : Plain verify)
    (valueA valueB : QueryResultData) (context : VerificationContext) :
    (compareData texts options validates order verify valueA valueB context).clean = some () ↔
      ¬ Differs texts (.data verify.dataCompare valueA valueB) := by
  match verify, plain with
  | .mk kind overrides, plain =>
    rw [compareData]
    match kind, plain.2 with
    | .notSet, _ => exact iff_of_true (by rw [compareDataKind]; rfl) not_differs_nil
    | .verify _, _ => exact iff_of_true (by rw [compareDataKind]; rfl) not_differs_nil
    | .listCompare _ _, _ => exact iff_of_true (by rw [compareDataKind]; rfl) not_differs_nil
    | .dataCompare fields, plainKind =>
      exact clean_compareFields fields plainKind valueA valueB (annotate valueA valueB context)

end

end

/-- Both comparisons find something or neither does, and both where kinds clash. -/
def ReportsBothWays (texts : ValueTexts) (fields : List (Text × QueryValueVerification Requirement))
    (valueA valueB : QueryResultData) (forth back : Check Unit) : Prop :=
  (forth.clean = some () ↔ back.clean = some ()) ∧
    (Clashes texts (.data fields valueA valueB) -> forth.clean ≠ some () ∧ back.clean ≠ some ())

/-- For all data sets, every verification without overrides and all orders of iteration, the
comparisons in both directions report the same way exactly if, in case the kinds of two values clash
somewhere, there is a difference to report from each side. -/
theorem compareSubqueryValues_symmetric_iff (texts : ValueTexts) (options : VerificationOptions)
    (validates : QueryValue -> Requirement -> Bool)
    (orderForth orderBack : IterationOrder (Text × ItemPair))
    (verification : List (Text × QueryValueVerification Requirement))
    (plain : PlainFields verification) (valueA valueB : QueryResultData)
    (context : VerificationContext) :
    ReportsBothWays texts verification valueA valueB
        (compareSubqueryValues texts options validates orderForth verification valueA valueB context)
        (compareSubqueryValues texts options validates orderBack verification valueB valueA context) ↔
      (Clashes texts (.data verification valueA valueB) ->
        Differs texts (.data verification valueA valueB) ∧
          Differs texts (.data verification valueB valueA)) := by
  have forth := clean_compareFields texts options validates orderForth verification plain valueA
    valueB (annotate valueA valueB context)
  have back := clean_compareFields texts options validates orderBack verification plain valueB
    valueA (annotate valueB valueA context)
  simp only [ReportsBothWays, compareSubqueryValues, ne_eq, forth, back, not_not]
  constructor
  · exact fun both => both.2
  · intro reported
    refine ⟨?_, reported⟩
    by_cases clashes : Clashes texts (.data verification valueA valueB)
    · have differs := reported clashes
      exact iff_of_false (fun same => same differs.1) fun same => same differs.2
    · refine not_congr ⟨fun differs => differs.swap clashes, fun differs => differs.swap ?_⟩
      exact fun others => clashes others.swap

end

/-- Texts that show strings alone. -/
def stringTexts : ValueTexts where
  format
    | .string value => value
    | _ => []
  dump
    | .string value => value
    | _ => []

/-- The statuses of two data sets are to be equal. -/
def statusVerification : List (Text × QueryValueVerification Unit) :=
  [(text "Status", .mk (.verify .equal) [])]

def statusData (status : QueryValue) : QueryResultData := [(text "Status", status)]

lemma plain_statusVerification : PlainFields statusVerification := by
  simp [statusVerification, PlainFields, Plain, PlainKind]

/-- Two statuses that are strings are reported from both sides if they differ. -/
theorem compareSubqueryValues_symmetric_strings :
    PlainFields statusVerification ∧
    ReportsBothWays stringTexts statusVerification
      (statusData (.string (text "OK"))) (statusData (.string (text "Warning")))
      (compareSubqueryValues stringTexts {} (fun _ _ => false) (.listed _) statusVerification
        (statusData (.string (text "OK"))) (statusData (.string (text "Warning"))) {})
      (compareSubqueryValues stringTexts {} (fun _ _ => false) (.reversed _) statusVerification
        (statusData (.string (text "Warning"))) (statusData (.string (text "OK"))) {}) := by
  refine ⟨plain_statusVerification, ?_⟩
  apply (compareSubqueryValues_symmetric_iff stringTexts {} (fun _ _ => false) (.listed _)
    (.reversed _) statusVerification plain_statusVerification _ _ {}).mpr
  have disagree : ∀ first second : Text, first ≠ second ->
      Differs stringTexts (.data statusVerification (statusData (.string first))
        (statusData (.string second))) := by
    intro first second different
    refine .inField (.head _) rfl rfl (.fieldScalar rfl ?_)
    rintro ⟨same, found, content⟩
    cases found
    exact different (eq_of_beq content)
  exact fun _ => ⟨disagree _ _ (by decide), disagree _ _ (by decide)⟩

/-- An empty list in place of a string is reported only if it comes second. -/
theorem compareSubqueryValues_accepts_list :
    PlainFields statusVerification ∧
    ¬ ReportsBothWays stringTexts statusVerification
      (statusData (.list [])) (statusData (.string (text "OK")))
      (compareSubqueryValues stringTexts {} (fun _ _ => false) (.listed _) statusVerification
        (statusData (.list [])) (statusData (.string (text "OK"))) {})
      (compareSubqueryValues stringTexts {} (fun _ _ => false) (.listed _) statusVerification
        (statusData (.string (text "OK"))) (statusData (.list [])) {}) := by
  refine ⟨plain_statusVerification, ?_⟩
  rintro ⟨same, -⟩
  cases same.mp rfl

end Ecclesia.Verification
