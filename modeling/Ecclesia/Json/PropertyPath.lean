import Ecclesia.Predicates.Grammar

namespace Ecclesia.PathUtil

open Absl List Bool
open Predicates (Trimmed trimmed_of_visible)

/-!
# Property paths

A property path consists of member names, each with an index or without one.  It is written as a
text, and the text is read as a path again, which need not be the same one: only some names can
have an index, and a backslash before a dot takes its meaning away.
-/

/-- A member, and an element of it if there is an index. -/
structure PathStep where
  name : Text
  index : Option Nat
deriving DecidableEq

def elementAt : Option Nat -> Json -> Option Json
  | none, value => some value
  | some index, .array elements => elements[index]?
  | some _, _ => none

def PathStep.follow (step : PathStep) (value : Json) : Option Json :=
  (value.find step.name).bind (elementAt step.index)

def walk : List PathStep -> Json -> Option Json
  | [], value => some value
  | step :: rest, value => (step.follow value).bind (walk rest)

/-- What a path leads to; one without steps leads nowhere. -/
def follow (steps : List PathStep) (value : Json) : Option Json :=
  if steps = [] then none else walk steps value

def escapeDots (name : Text) : Text :=
  name.flatMap fun c => if c = '.' then ['\\', '.'] else [c]

def indexText : Option Nat -> Text
  | none => []
  | some index => '[' :: (strCatNat index ++ [']'])

def PathStep.segment (step : PathStep) : Text :=
  escapeDots step.name ++ indexText step.index

def pathText (steps : List PathStep) : Text :=
  strJoin (steps.map PathStep.segment) (text ".")

def readSegment (segment : Text) : PathStep :=
  match if endsWith segment (text "]") then splitNodeNameIfArrayType segment else none with
  | some (name, index) => ⟨name, some index.toNat⟩
  | none => ⟨segment, none⟩

def readPath (path : Text) : List PathStep :=
  (splitNodeNameForNestedNodes path).map readSegment

lemma not_space_of_digit {c : Char} (digit : asciiIsDigit c = true) : asciiIsSpace c = false := by
  rw [asciiIsDigit, and_eq_true, decide_eq_true_eq] at digit
  have low : 48 <= c.toNat := digit.1
  have notBlank : (c == ' ') = false := by
    rw [beq_eq_false_iff_ne]
    rintro rfl
    exact absurd low (by decide)
  rw [asciiIsSpace, notBlank, Bool.false_or, and_eq_false_iff]
  right
  rw [decide_eq_false_iff_not]
  omega

/-- Digits have no sign and no white space around them. -/
lemma simpleAtoi32_digits {digits : Text} (allDigits : digits.all asciiIsDigit = true) :
    simpleAtoi32 digits = simpleAtoi32.bounded digits := by
  cases digits with
  | nil => rfl
  | cons c rest =>
    have visible : ∀ d ∈ c :: rest, asciiIsSpace d = false :=
      fun d member => not_space_of_digit (all_eq_true.mp allDigits d member)
    have trimmed : Trimmed (c :: rest) := trimmed_of_visible (cons_ne_nil _ _) visible
    have digit := all_eq_true.mp allDigits c (.head _)
    unfold simpleAtoi32
    rw [trimmed.strip]
    split
    · rename_i others starts
      cases starts
      exact absurd digit (by decide)
    · rename_i others starts
      cases starts
      exact absurd digit (by decide)
    · rfl

lemma strCatNat_digits (value : Nat) : (strCatNat value).all asciiIsDigit = true := by
  rw [all_eq_true]
  intro c member
  have digit := Nat.isDigit_of_mem_toDigits (by decide) (by decide) member
  rw [Char.isDigit, and_eq_true, decide_eq_true_eq, decide_eq_true_eq] at digit
  rw [asciiIsDigit, and_eq_true, decide_eq_true_eq, decide_eq_true_eq]
  exact digit

lemma parseDigits_strCatNat (index : Nat) : parseDigits (strCatNat index) = some index := by
  have value : (strCatNat index).foldl (fun value c => 10 * value + digitValue c) 0 = index :=
    Nat.ofDigitChars_ten_toDigits
  have nonempty : (strCatNat index).isEmpty = false := by
    rw [isEmpty_eq_false_iff]
    exact Nat.toDigits_ne_nil
  rw [parseDigits, nonempty, strCatNat_digits, value]
  rfl

lemma simpleAtoi32_strCatNat {index : Nat} (small : index < 2 ^ 31) :
    simpleAtoi32 (strCatNat index) = some (index : Int) := by
  rw [simpleAtoi32_digits (strCatNat_digits index), simpleAtoi32.bounded, parseDigits_strCatNat]
  exact if_pos small

lemma splitNodeNameIfArrayType_nonneg {segment name : Text} {index : Int}
    (isIndexed : splitNodeNameIfArrayType segment = some (name, index)) : 0 <= index := by
  unfold splitNodeNameIfArrayType at isIndexed
  split at isIndexed
  · split at isIndexed
    · dsimp only at isIndexed
      split at isIndexed
      · rename_i valid
        rw [and_eq_true] at valid
        rcases Option.map_eq_some_iff.mp isIndexed with ⟨value, isValue, same⟩
        rw [simpleAtoi32_digits valid.2, simpleAtoi32.bounded] at isValue
        cases same
        split at isValue
        · split at isValue
          · cases isValue
            exact Int.natCast_nonneg _
          · cases isValue
        · cases isValue
      · cases isIndexed
    · cases isIndexed
  · cases isIndexed

def isSegmentName : Text -> Bool
  | first :: second :: others =>
    (asciiIsAlpha first || first == '#' || first == '@') &&
      (second :: others).all isSegmentCharacter
  | _ => false

/-- The name can have the index, or it does not look as if it had one. -/
def PathStep.Legible (step : PathStep) : Prop :=
  match step.index with
  | some index => isSegmentName step.name = true ∧ index < 2 ^ 31
  | none => splitNodeNameIfArrayType step.name = none

/-- Every step is legible, and no name ends in a backslash before a dot or the path in white space.
-/
structure Legible (steps : List PathStep) : Prop where
  each : ∀ step ∈ steps, step.Legible
  dots : ∀ step ∈ steps.dropLast, step.index = none -> step.name.getLast? ≠ some '\\'
  trimmed : Trimmed (pathText steps)

lemma splitSegments_push {c : Char} {rest : Text} (notDot : c ≠ '.')
    (plain : c = '\\' -> rest.head? ≠ some '.') (segment : Text) :
    splitSegments (c :: rest) segment = splitSegments rest (segment ++ [c]) := by
  rw [splitSegments]
  · rintro others rfl rfl
    exact plain rfl rfl
  · exact notDot

lemma splitSegments_plain {t : Text} (plain : ∀ c ∈ t, c ≠ '.' ∧ c ≠ '\\')
    (rest : Text) : ∀ segment : Text,
      splitSegments (t ++ rest) segment = splitSegments rest (segment ++ t) := by
  induction t with
  | nil =>
    intro segment
    rw [nil_append, append_nil]
  | cons c others ih =>
    intro segment
    rcases plain c (.head _) with ⟨notDot, notBackslash⟩
    rw [cons_append, splitSegments_push notDot fun same => absurd same notBackslash,
      ih fun d member => plain d (mem_cons_of_mem c member), append_assoc]
    rfl

lemma escapeDots_cons (c : Char) (name : Text) :
    escapeDots (c :: name) = (if c = '.' then ['\\', '.'] else [c]) ++ escapeDots name :=
  flatMap_cons

lemma head_escapeDots {name rest : Text} (plain : name = [] -> rest.head? ≠ some '.') :
    (escapeDots name ++ rest).head? ≠ some '.' := by
  cases name with
  | nil => exact plain rfl
  | cons c name =>
    rw [escapeDots_cons]
    by_cases dot : c = '.'
    · rw [if_pos dot]
      exact (by decide : some '\\' ≠ some '.')
    · rw [if_neg dot]
      exact fun same => dot (Option.some.inj same)

lemma splitSegments_escapeDots {name rest : Text}
    (apart : name.getLast? = some '\\' -> rest.head? ≠ some '.') : ∀ segment : Text,
      splitSegments (escapeDots name ++ rest) segment = splitSegments rest (segment ++ name) := by
  induction name with
  | nil =>
    intro segment
    rw [append_nil]
    rfl
  | cons c name ih =>
    intro segment
    have later : name.getLast? = some '\\' -> rest.head? ≠ some '.' := by
      intro ends
      apply apart
      rw [getLast?_cons, ends]
      rfl
    rw [escapeDots_cons]
    by_cases dot : c = '.'
    · rw [dot]
      change splitSegments (escapeDots name ++ rest) (segment ++ ['.']) = _
      rw [ih later, append_assoc]
      rfl
    · rw [if_neg dot, append_assoc, singleton_append, splitSegments_push dot,
        ih later, append_assoc]
      · rfl
      · intro isBackslash
        apply head_escapeDots
        intro isLast
        apply apart
        rw [isLast, isBackslash]
        rfl

lemma indexText_plain (index : Option Nat) : ∀ c ∈ indexText index, c ≠ '.' ∧ c ≠ '\\' := by
  intro c member
  cases index with
  | none => cases member
  | some index =>
    have digits : ∀ d ∈ strCatNat index, d ≠ '.' ∧ d ≠ '\\' := by
      intro d isDigit
      have digit := all_eq_true.mp (strCatNat_digits index) d isDigit
      constructor
      · rintro rfl
        exact absurd digit (by decide)
      · rintro rfl
        exact absurd digit (by decide)
    rcases mem_cons.mp member with rfl | inside
    · decide
    · rcases mem_append.mp inside with isDigit | closing
      · exact digits c isDigit
      · rw [mem_singleton.mp closing]
        decide

/-- A segment as it is read. -/
def PathStep.unescaped (step : PathStep) : Text :=
  step.name ++ indexText step.index

lemma splitSegments_segment {step : PathStep} {rest : Text}
    (apart : step.index = none -> step.name.getLast? = some '\\' -> rest.head? ≠ some '.')
    (segment : Text) :
    splitSegments (step.segment ++ rest) segment =
      splitSegments rest (segment ++ step.unescaped) := by
  have behind : step.name.getLast? = some '\\' ->
      (indexText step.index ++ rest).head? ≠ some '.' := by
    intro ends
    cases isIndex : step.index with
    | none => exact apart isIndex ends
    | some index => exact (by decide : some '[' ≠ some '.')
  rw [PathStep.segment, append_assoc, splitSegments_escapeDots behind,
    splitSegments_plain (indexText_plain step.index), append_assoc]
  rfl

lemma splitSegments_pathText {steps : List PathStep} (nonempty : steps ≠ [])
    (dots : ∀ step ∈ steps.dropLast, step.index = none -> step.name.getLast? ≠ some '\\') :
    splitSegments (pathText steps) [] = steps.map PathStep.unescaped := by
  induction steps with
  | nil => exact absurd rfl nonempty
  | cons step rest ih =>
    cases rest with
    | nil =>
      have single : pathText [step] = step.segment := by
        change (text ".").intercalate [step.segment] = step.segment
        exact intercalate_singleton
      have whole := @splitSegments_segment step [] (fun _ _ impossible => nomatch impossible) []
      rw [append_nil] at whole
      rw [single, whole]
      rfl
    | cons next others =>
      have split : pathText (step :: next :: others) =
          step.segment ++ ('.' :: pathText (next :: others)) := by
        rfl
      have later := ih (cons_ne_nil _ _) fun other member =>
        dots other (mem_cons_of_mem step member)
      rw [split, splitSegments_segment fun unindexed ends =>
        absurd ends (dots step (.head _) unindexed)]
      change ([] ++ step.unescaped) :: splitSegments (pathText (next :: others)) [] = _
      rw [later]
      rfl

lemma bracket_notMem_of_isSegmentName {name : Text} (valid : isSegmentName name = true) :
    ∀ c ∈ name, (c != '[') = true := by
  intro c member
  rw [bne_iff_ne]
  rintro rfl
  match name, valid with
  | first :: second :: others, valid =>
    rw [isSegmentName, and_eq_true] at valid
    rcases mem_cons.mp member with isFirst | later
    · rw [<- isFirst] at valid
      exact absurd valid.1 (by decide)
    · exact absurd (all_eq_true.mp valid.2 '[' later) (by decide)

lemma splitNodeNameIfArrayType_segment {name : Text} {index : Nat}
    (valid : isSegmentName name = true) (small : index < 2 ^ 31) :
    splitNodeNameIfArrayType (name ++ indexText (some index)) = some (name, (index : Int)) := by
  have cut : (name ++ indexText (some index)).span (fun c => c != '[') =
      (name, '[' :: (strCatNat index ++ [']'])) := by
    rw [span_eq_takeWhile_dropWhile]
    have before := bracket_notMem_of_isSegmentName valid
    rw [takeWhile_append_of_pos before, dropWhile_append_of_pos before]
    simp [indexText]
  have reversed : (strCatNat index ++ [']']).reverse = ']' :: (strCatNat index).reverse := by
    rw [reverse_append]
    rfl
  unfold splitNodeNameIfArrayType
  rw [cut]
  match name, valid with
  | first :: second :: others, valid =>
    rw [isSegmentName] at valid
    simp only [reversed, reverse_reverse]
    rw [strCatNat_digits, Bool.and_true, if_pos valid, simpleAtoi32_strCatNat small]
    rfl

lemma readSegment_unescaped {step : PathStep} (legible : step.Legible) :
    readSegment step.unescaped = step := by
  rcases step with ⟨name, index⟩
  unfold readSegment PathStep.unescaped
  cases index with
  | none =>
    have unindexed : splitNodeNameIfArrayType name = none := legible
    simp only [indexText, append_nil, unindexed, ite_self]
  | some index =>
    have closing : endsWith (name ++ indexText (some index)) (text "]") = true := by
      rw [endsWith, isSuffixOf_iff_suffix]
      refine ⟨name ++ '[' :: strCatNat index, ?_⟩
      simp [indexText, text]
    rw [if_pos closing, splitNodeNameIfArrayType_segment legible.1 legible.2]
    rfl

lemma readPath_of_legible {steps : List PathStep} (legible : Legible steps) :
    readPath (pathText steps) = steps := by
  have nonempty : steps ≠ [] := by
    rintro rfl
    rcases legible.trimmed.1 with ⟨c, rest, starts, _⟩
    cases starts
  have visible : (pathText steps).isEmpty = false := by
    rcases legible.trimmed.1 with ⟨c, rest, starts, _⟩
    rw [starts]
    rfl
  have segments : splitNodeNameForNestedNodes (pathText steps) = steps.map PathStep.unescaped := by
    unfold splitNodeNameForNestedNodes
    rw [legible.trimmed.strip]
    simp only [visible]
    exact splitSegments_pathText nonempty legible.dots
  rw [readPath, segments, map_map]
  have same : ∀ step ∈ steps, (readSegment ∘ PathStep.unescaped) step = step :=
    fun step member => readSegment_unescaped (legible.each step member)
  rw [map_congr_left same, map_id']

end Ecclesia.PathUtil
