import Ecclesia.Absl.Replace
import Ecclesia.Predicates.Filter

namespace Ecclesia.Predicates

open Absl List

/-!
# Decoding a filter

A filter is encoded again at every level of its predicate object.  Since encoding again changes
nothing, it is the encoding of the text without any encoding.  Decoding this gives back all
characters but one: the entry of the table for `#` is the code of the percent sign.
-/

section

variable (simpleAtof : Text -> Bool)

mutual

/-- The text of `GenerateFilterString` without `EncodeSpecialCharacters`. -/
def plainFilterString : PredicateObject -> StatusOr Text
  | .mk relationalExpression _ [] =>
    relationalExpressionToString (applyTransformsToExpression simpleAtof relationalExpression)
  | .mk _ logicalOperators (first :: rest) => plainFilterChildren (first :: rest) logicalOperators

def plainFilterChildren : List PredicateObject -> List Text -> StatusOr Text
  | [], _ => .ok []
  | child :: rest, logicalOperators => do
      let childFilterString <-
        (if child.childPredicates.isEmpty then
          relationalExpressionToString
            (applyTransformsToExpression simpleAtof child.relationalExpression)
        else
          (plainFilterString child).map fun filterString => text "(" ++ filterString ++ text ")")
      let later <- plainFilterChildren rest logicalOperators.tail
      return childFilterString ++ logicalOperators.headD [] ++ later

end

mutual

def usedTexts : PredicateObject -> List Text
  | .mk relationalExpression _ [] =>
    [relationalExpression.lhs, relationalExpression.relOperator, relationalExpression.rhs]
  | .mk _ logicalOperators (first :: rest) => usedByChildren (first :: rest) logicalOperators

def usedByChildren : List PredicateObject -> List Text -> List Text
  | [], _ => []
  | child :: rest, logicalOperators =>
    usedTexts child ++ logicalOperators.headD [] :: usedByChildren rest logicalOperators.tail

end

variable {simpleAtof}

/-- Two evaluations with the same filter once it has been encoded. -/
def SameEncoded (first second : StatusOr Text) : Prop :=
  first.map encodeSpecialCharacters = second.map encodeSpecialCharacters

lemma SameEncoded.append {first second laterFirst laterSecond : StatusOr Text}
    (same : SameEncoded first second) (sameLater : SameEncoded laterFirst laterSecond)
    (between : Text) :
    SameEncoded
      (do
        let filterString <- first
        let later <- laterFirst
        return filterString ++ between ++ later)
      (do
        let filterString <- second
        let later <- laterSecond
        return filterString ++ between ++ later) := by
  cases first with
  | error status =>
    cases second with
    | error other => exact same
    | ok filterString => cases same
  | ok filterString =>
    cases second with
    | error other => cases same
    | ok other =>
      cases laterFirst with
      | error status =>
        cases laterSecond with
        | error other => exact sameLater
        | ok later => cases sameLater
      | ok later =>
        cases laterSecond with
        | error other => cases sameLater
        | ok otherLater =>
          have front := Except.ok.inj same
          have back := Except.ok.inj sameLater
          change Except.ok (encodeSpecialCharacters _) = Except.ok (encodeSpecialCharacters _)
          simp only [encode_append, front, back]

mutual

theorem generateFilterString_eq_plain (predicate : PredicateObject) :
    generateFilterString simpleAtof predicate =
      (plainFilterString simpleAtof predicate).map encodeSpecialCharacters := by
  match predicate with
  | .mk relationalExpression logicalOperators [] =>
    cases relationalExpressionToString
        (applyTransformsToExpression simpleAtof relationalExpression) with
    | error status => rfl
    | ok filterString => rfl
  | .mk relationalExpression logicalOperators (first :: rest) =>
    have children := filterChildren_sameEncoded (first :: rest) logicalOperators
    rw [generateFilterString]
    cases ran : filterChildren simpleAtof (first :: rest) logicalOperators with
    | error status =>
      rw [ran] at children
      exact children
    | ok filterString =>
      rw [ran] at children
      exact children

theorem filterChildren_sameEncoded (children : List PredicateObject)
    (logicalOperators : List Text) :
    SameEncoded (filterChildren simpleAtof children logicalOperators)
      (plainFilterChildren simpleAtof children logicalOperators) := by
  match children with
  | [] => rfl
  | child :: rest =>
    have inside := generateFilterString_eq_plain child
    have later := filterChildren_sameEncoded rest logicalOperators.tail
    apply SameEncoded.append _ later
    split
    · rfl
    · rw [inside]
      cases plainFilterString simpleAtof child with
      | error status => rfl
      | ok filterString =>
        change Except.ok (encodeSpecialCharacters _) = Except.ok (encodeSpecialCharacters _)
        simp only [encode_append, encode_idempotent]

end

/-- Characters that nothing but the encoding looks at. -/
def Untouched (c : Char) : Prop := c = '%' ∨ c = '#'

lemma Untouched.both {Holds : Char -> Prop} {c : Char} (untouched : Untouched c)
    (percent : Holds '%') (hash : Holds '#') : Holds c := by
  rcases untouched with isPercent | isHash
  · exact isPercent ▸ percent
  · exact isHash ▸ hash

lemma mem_leafText {c : Char} (untouched : Untouched c) (content : RelationalExpression) :
    c ∈ leafText simpleAtof content ↔
      c ∈ content.lhs ∨ c ∈ content.relOperator ∨ c ∈ content.rhs := by
  have operators : ∀ entry ∈ relationalOperators, entry.1 ≠ [] ∧ c ∉ entry.1 ∧ c ∉ entry.2 := by
    apply untouched.both <;> decide
  have periods : ∀ entry ∈ [(text ".", text "/")], entry.1 ≠ [] ∧ c ∉ entry.1 ∧ c ∉ entry.2 := by
    apply untouched.both <;> decide
  have quote : c ∉ text "'" := by
    apply untouched.both <;> decide
  unfold leafText applyTransformsToExpression
  simp only [mem_append, mem_strReplaceAll operators, mem_strReplaceAll periods]
  split
  · simp only [mem_append, quote, false_or, or_false, or_assoc]
  · rw [or_assoc]

lemma mem_leaf_filterString {c : Char} (untouched : Untouched c)
    {content : RelationalExpression} {filterString : Text}
    (ran : relationalExpressionToString (applyTransformsToExpression simpleAtof content) =
      .ok filterString) :
    c ∈ filterString ↔ c ∈ content.lhs ∨ c ∈ content.relOperator ∨ c ∈ content.rhs := by
  unfold relationalExpressionToString at ran
  split at ran
  next =>
    have isLeaf : filterString = leafText simpleAtof content := (Except.ok.inj ran).symm
    rw [isLeaf]
    exact mem_leafText untouched content
  next => cases ran

mutual

theorem mem_plainFilterString {c : Char} (untouched : Untouched c) (predicate : PredicateObject)
    {filterString : Text} (ran : plainFilterString simpleAtof predicate = .ok filterString) :
    c ∈ filterString ↔ ∃ part ∈ usedTexts predicate, c ∈ part := by
  match predicate with
  | .mk relationalExpression logicalOperators [] =>
    rw [mem_leaf_filterString untouched ran, usedTexts]
    simp only [mem_cons, not_mem_nil, or_false, exists_eq_or_imp, exists_eq_left]
  | .mk relationalExpression logicalOperators (first :: rest) =>
    exact mem_plainFilterChildren untouched (first :: rest) logicalOperators ran

theorem mem_plainFilterChildren {c : Char} (untouched : Untouched c)
    (children : List PredicateObject) (logicalOperators : List Text) {filterString : Text}
    (ran : plainFilterChildren simpleAtof children logicalOperators = .ok filterString) :
    c ∈ filterString ↔ ∃ part ∈ usedByChildren children logicalOperators, c ∈ part := by
  match children with
  | [] =>
    cases ran
    simp [usedByChildren]
  | child :: rest =>
    rw [plainFilterChildren] at ran
    have inChild : ∀ childFilterString,
        (if child.childPredicates.isEmpty then
          relationalExpressionToString
            (applyTransformsToExpression simpleAtof child.relationalExpression)
        else (plainFilterString simpleAtof child).map fun filterString =>
          text "(" ++ filterString ++ text ")") = .ok childFilterString ->
        (c ∈ childFilterString ↔ ∃ part ∈ usedTexts child, c ∈ part) := by
      intro childFilterString ranChild
      have known := fun filterString ranPlain =>
        @mem_plainFilterString c untouched child filterString ranPlain
      split at ranChild
      next leaf =>
        apply known
        rcases child with ⟨relationalExpression, operators, grandchildren⟩
        have none : grandchildren = [] := List.isEmpty_iff.mp leaf
        subst none
        exact ranChild
      next =>
        cases ranPlain : plainFilterString simpleAtof child with
        | error status =>
          rw [ranPlain] at ranChild
          cases ranChild
        | ok plain =>
          rw [ranPlain] at ranChild
          have isGroup := Except.ok.inj ranChild
          have notParenthesis : c ∉ text "(" ∧ c ∉ text ")" := by
            apply untouched.both <;> decide
          rw [<- isGroup, <- known plain ranPlain]
          simp only [mem_append, notParenthesis.1, notParenthesis.2, false_or, or_false]
    generalize (if child.childPredicates.isEmpty then _ else _ : StatusOr Text) = childRun
      at ran inChild
    cases childRun with
    | error status => cases ran
    | ok childFilterString =>
      cases ranRest : plainFilterChildren simpleAtof rest logicalOperators.tail with
      | error status =>
        rw [ranRest] at ran
        cases ran
      | ok later =>
        rw [ranRest] at ran
        have isJoined : filterString = childFilterString ++ logicalOperators.headD [] ++ later :=
          (Except.ok.inj ran).symm
        have inRest := mem_plainFilterChildren untouched rest logicalOperators.tail ranRest
        rw [isJoined, usedByChildren, mem_append, mem_append, inRest, inChild childFilterString rfl]
        simp only [mem_append, mem_cons, or_and_right, exists_or, exists_eq_left, or_assoc]

end

end

/-- What is left of a character that is encoded and decoded. -/
def decodedCharacter (c : Char) : Text :=
  if c = '#' then ['%'] else if c = '\\' then [] else [c]

/-- Three characters that are decoded together. -/
def isEscape : Text -> Bool
  | ['%', high, low] => (hexDigit? high).isSome && (hexDigit? low).isSome
  | _ => false

lemma percentDecode_escape {escape : Text} (isOne : isEscape escape = true) (rest : Text) :
    percentDecode (escape ++ rest) = percentDecode escape ++ percentDecode rest := by
  unfold isEscape at isOne
  split at isOne
  next high low =>
    rcases Bool.and_eq_true_iff.mp isOne with ⟨isHigh, isLow⟩
    rcases Option.isSome_iff_exists.mp isHigh with ⟨first, foundHigh⟩
    rcases Option.isSome_iff_exists.mp isLow with ⟨second, foundLow⟩
    simp only [cons_append, nil_append, percentDecode, foundHigh, foundLow]
  next => cases isOne

lemma specialCharacterEncodings_decode : ∀ entry ∈ specialCharacterEncodings,
    (entry.2 = [] ∨ isEscape entry.2 = true) ∧
      percentDecode entry.2 = decodedCharacter entry.1 := by
  decide

lemma percentDecode_encodeCharacter {c : Char} (notPercent : c ≠ '%') (rest : Text) :
    percentDecode (encodeCharacter c ++ rest) = decodedCharacter c ++ percentDecode rest := by
  unfold encodeCharacter
  cases found : specialCharacterEncodings.lookup c with
  | some replacement =>
    rcases lookup_eq_some_iff.mp found with ⟨before, after, split, -⟩
    have member : (c, replacement) ∈ specialCharacterEncodings := by
      rw [split]
      exact mem_append_right _ (.head _)
    rcases specialCharacterEncodings_decode _ member with ⟨shape, decoded⟩
    simp only at shape decoded
    rw [<- decoded]
    rcases shape with empty | escape
    · rw [empty]
      rfl
    · exact percentDecode_escape escape rest
  | none =>
    have plain : decodedCharacter c = [c] := by
      unfold decodedCharacter
      split
      next isHash =>
        subst isHash
        cases found
      next =>
        split
        next isBackslash =>
          subst isBackslash
          cases found
        next => rfl
    rw [plain]
    exact percentDecode_cons fun isPercent => absurd isPercent notPercent

lemma percentDecode_encodeSpecialCharacters {t : Text} (noPercent : '%' ∉ t) :
    percentDecode (encodeSpecialCharacters t) = t.flatMap decodedCharacter := by
  rw [encode_eq]
  induction t with
  | nil => rfl
  | cons c rest ih =>
    have notHere : c ≠ '%' := fun same => noPercent (same ▸ (.head _))
    have notLater : '%' ∉ rest := fun member => noPercent (mem_cons_of_mem c member)
    rw [flatMap_cons, flatMap_cons, percentDecode_encodeCharacter notHere, ih notLater]

/-- Decoding drops the backslashes and nothing else, if there is no hash sign. -/
lemma flatMap_decodedCharacter_iff {t : Text} (noPercent : '%' ∉ t) :
    t.flatMap decodedCharacter = t.filter (· ≠ '\\') ↔ '#' ∉ t := by
  constructor
  · intro same hash
    have decoded : '%' ∈ t.flatMap decodedCharacter :=
      mem_flatMap.mpr ⟨'#', hash, mem_singleton_self _⟩
    rw [same] at decoded
    exact noPercent (mem_filter.mp decoded).1
  · intro noHash
    clear noPercent
    induction t with
    | nil => rfl
    | cons c rest ih =>
      have notHere : c ≠ '#' := fun same => noHash (same ▸ (.head _))
      have notLater : '#' ∉ rest := fun member => noHash (mem_cons_of_mem c member)
      rw [flatMap_cons, ih notLater, decodedCharacter, if_neg notHere]
      by_cases backslash : c = '\\'
      · rw [if_pos backslash, filter_cons_of_neg (by simp [backslash])]
        rfl
      · rw [if_neg backslash, filter_cons_of_pos (by simp [backslash])]
        rfl

theorem filter_decodable_iff : ∀ (simpleAtof : Text -> Bool) (predicate : PredicateObject)
    (filterString : Text), generateFilterString simpleAtof predicate = .ok filterString ->
      (∀ part ∈ usedTexts predicate, '%' ∉ part) ->
        ∃ plain, plainFilterString simpleAtof predicate = .ok plain ∧
          (percentDecode filterString = plain.filter (· ≠ '\\') ↔
            ∀ part ∈ usedTexts predicate, '#' ∉ part) := by
  intro simpleAtof predicate filterString generated noPercent
  rw [generateFilterString_eq_plain] at generated
  cases ran : plainFilterString simpleAtof predicate with
  | error status =>
    rw [ran] at generated
    cases generated
  | ok plain =>
    rw [ran] at generated
    have isEncoded : filterString = encodeSpecialCharacters plain := (Except.ok.inj generated).symm
    have plainNoPercent : '%' ∉ plain := by
      rw [mem_plainFilterString (.inl rfl) predicate ran]
      rintro ⟨part, member, percent⟩
      exact noPercent part member percent
    have hashes : '#' ∈ plain ↔ ∃ part ∈ usedTexts predicate, '#' ∈ part :=
      mem_plainFilterString (.inr rfl) predicate ran
    refine ⟨plain, rfl, ?_⟩
    rw [isEncoded, percentDecode_encodeSpecialCharacters plainNoPercent,
      flatMap_decodedCharacter_iff plainNoPercent, hashes]
    simp only [not_exists, not_and]

/-- `Name=Fan#1 and (Model=A\\ B)` -/
def numberedFan : PredicateObject :=
  .mk ⟨[], [], [], []⟩ [text " and "]
    [.mk (equation "Name" "Fan#1") [] [],
      .mk ⟨[], [], [], []⟩ [] [.mk (equation "Model" "A\\ B") [] []]]

theorem filter_decodable_numberedFan :
    ∃ filterString plain,
      generateFilterString (fun _ => false) numberedFan = .ok filterString ∧
      plainFilterString (fun _ => false) numberedFan = .ok plain ∧
      (percentDecode filterString = plain.filter (· ≠ '\\') ↔
        ∀ part ∈ usedTexts numberedFan, '#' ∉ part) := by
  rcases filter_decodable_iff (fun _ => false) numberedFan _ rfl (by decide) with ⟨plain, ran, iff⟩
  exact ⟨_, plain, rfl, ran, iff⟩

/-- The hash sign comes back as a percent sign. -/
theorem filter_decodes_hash :
    ∃ filterString plain,
      generateFilterString (fun _ => false) numberedFan = .ok filterString ∧
      plainFilterString (fun _ => false) numberedFan = .ok plain ∧
      (∀ part ∈ usedTexts numberedFan, '%' ∉ part) ∧
      plain = text "Name eq 'Fan#1' and (Model eq 'A\\ B')" ∧
      percentDecode filterString = text "Name eq 'Fan%1' and (Model eq 'A B')" ∧
      percentDecode filterString ≠ plain.filter (· ≠ '\\') :=
  ⟨_, _, rfl, rfl, by decide, rfl, rfl, by decide⟩

end Ecclesia.Predicates
