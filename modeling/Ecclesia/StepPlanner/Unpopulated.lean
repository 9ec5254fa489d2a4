import Ecclesia.StepPlanner.Scan

namespace Ecclesia.StepPlanner

open Absl List
open Predicates (operatorText)

/-!
# Predicates without their unpopulated variables

The parentheses at an expression that is dropped go with it.  So what is left is a predicate
exactly if the other parentheses match by themselves, and every piece that goes is the operator
it is taken for.
-/

/-- What is left is a predicate with exactly the expressions without a variable, or the token. -/
def KeepsPopulated (predicate : JoinedPredicate) : Prop :=
  if predicate.populated = [] then
    invalidateUnpopulatedVariables predicate.render = kPredicateSelectAll
  else
    ∃ left : JoinedPredicate,
      left.operands.map GroupedExpression.expression =
        predicate.populated.map GroupedExpression.expression ∧
      Matches left.render ∧ invalidateUnpopulatedVariables predicate.render = left.render

lemma foldl_nest_operator (op : Connective) (depth : Option Nat) :
    (operatorText op).foldl nest depth = depth := by
  cases op with
  | and => rfl
  | or => rfl

lemma nest_blank (depth : Option Nat) : nest depth ' ' = depth := rfl

lemma foldl_nest_render (last : GroupedExpression) :
    ∀ (before : List (GroupedExpression × Connective)) (depth : Option Nat),
      (JoinedPredicate.render ⟨before, last⟩).foldl nest depth =
        ((JoinedPredicate.operands ⟨before, last⟩).map GroupedExpression.render).flatten.foldl nest
          depth := by
  intro before
  induction before with
  | nil =>
    intro depth
    rw [JoinedPredicate.render_nil]
    simp [JoinedPredicate.operands]
  | cons entry rest ih =>
    intro depth
    rcases entry with ⟨operand, op⟩
    have shape : JoinedPredicate.operands ⟨(operand, op) :: rest, last⟩ =
        operand :: JoinedPredicate.operands ⟨rest, last⟩ := rfl
    rw [JoinedPredicate.render_cons, shape, map_cons, flatten_cons, foldl_append,
      foldl_append, foldl_cons, nest_blank, foldl_append, foldl_nest_operator,
      foldl_cons, nest_blank, ih]

lemma matches_render_iff {predicate : JoinedPredicate} :
    Matches predicate.render ↔
      Matches (predicate.operands.map GroupedExpression.render).flatten := by
  unfold Matches
  rw [foldl_nest_render predicate.last predicate.before]

lemma mem_render {predicate : JoinedPredicate} {operand : GroupedExpression}
    (isOperand : operand ∈ predicate.operands) {c : Char} (member : c ∈ operand.render) :
    c ∈ predicate.render := by
  rcases predicate with ⟨before, last⟩
  induction before with
  | nil =>
    have isLast : operand = last := mem_singleton.mp isOperand
    rw [JoinedPredicate.render_nil, <- isLast]
    exact member
  | cons entry rest ih =>
    rcases entry with ⟨first, op⟩
    rw [JoinedPredicate.render_cons]
    rcases mem_cons.mp isOperand with rfl | later
    · exact mem_append_left _ member
    · apply mem_append_right
      apply mem_cons_of_mem
      apply mem_append_right
      exact .tail _ (ih later)

lemma backslash_mem_expression {operand : GroupedExpression} (escapes : operand.escapes = true) :
    '\\' ∈ operand.expression := by
  have member : '\\' ∈ operand.render := by
    rcases isSuffixOf_iff_suffix.mp escapes with ⟨before, ends⟩
    rw [<- ends]
    exact mem_append_right _ (mem_singleton_self _)
  rcases mem_append.mp member with opening | inside
  · exact absurd (eq_of_mem_replicate opening) (by decide)
  · rcases mem_append.mp inside with isExpression | closing
    · exact isExpression
    · exact absurd (eq_of_mem_replicate closing) (by decide)

lemma JoinedPredicate.operands_ne_nil (predicate : JoinedPredicate) : predicate.operands ≠ [] :=
  append_ne_nil_of_right_ne_nil _ (cons_ne_nil _ _)

lemma JoinedPredicate.length_words (predicate : JoinedPredicate) :
    predicate.words.length + 1 = 2 * predicate.operands.length := by
  rcases predicate with ⟨before, last⟩
  induction before with
  | nil => rfl
  | cons entry rest ih =>
    have words : JoinedPredicate.words ⟨entry :: rest, last⟩ =
        entry.1.render :: operatorText entry.2 :: JoinedPredicate.words ⟨rest, last⟩ := rfl
    have operands : JoinedPredicate.operands ⟨entry :: rest, last⟩ =
        entry.1 :: JoinedPredicate.operands ⟨rest, last⟩ := rfl
    rw [words, operands, length_cons, length_cons, length_cons]
    omega

/-- Operators alone are not the token for everything. -/
lemma operators_ne_selectAll {words : List Text}
    (operators : ∀ word ∈ words, ∃ op, word = operatorText op) :
    pieceText words ≠ kPredicateSelectAll := by
  intro same
  cases words with
  | nil => cases same
  | cons word rest =>
    rcases operators word (.head _) with ⟨op, rfl⟩
    have starts : ∃ more, pieceText (operatorText op :: rest) = operatorText op ++ more := by
      cases rest with
      | nil => exact ⟨[], by rw [pieceText_singleton, append_nil]⟩
      | cons next others =>
        refine ⟨text " " ++ pieceText (next :: others), ?_⟩
        rw [<- append_assoc]
        exact intercalate_cons_cons
    rcases starts with ⟨more, starts⟩
    rw [starts] at same
    cases op with
    | and => cases same
    | or => cases same

section

variable {predicate : JoinedPredicate}

section

variable (several : predicate.before ≠ [])

include several

lemma keepsPopulated_of_aligned
    (matched : Matches (predicate.populated.map GroupedExpression.render).flatten)
    (aligned : Aligned predicate.last false predicate.before) : KeepsPopulated predicate := by
  have returned := invalidate_render predicate several
  unfold KeepsPopulated
  have sofar : ([] : List (List Text)).flatten = doneWords [] := rfl
  rcases scan_of_aligned aligned Filled.nil sofar with
    ⟨scanned, _, none_⟩ | ⟨after, left, scanned, nonempty, operands, words⟩
  · rw [if_pos none_, returned, scanned]
  · rw [map_nil, nil_append] at operands
    have some_ : predicate.populated ≠ [] := by
      intro none_
      exact left.operands_ne_nil (operands.trans none_)
    rw [if_neg some_]
    refine ⟨left, ?_, ?_, ?_⟩
    · rw [operands]
    · rw [matches_render_iff, operands]
      exact matched
    · rw [returned, scanned]
      dsimp only
      rw [pieceText_pieces nonempty, words]
      rfl

/-- If nothing is returned but the token for everything, then no operand is populated. -/
lemma aligned_of_scan_none
    (scanned : scan predicate.last [] predicate.before = none) (keeps : KeepsPopulated predicate) :
    predicate.populated = [] ∧ Aligned predicate.last false predicate.before := by
  have returned := invalidate_render predicate several
  rw [scanned] at returned
  rcases scan_none scanned with ⟨_, ofLast, escaping, aligned⟩
  have none_ : predicate.populated = [] := by
    by_contra some_
    unfold KeepsPopulated at keeps
    rw [if_neg some_] at keeps
    rcases keeps with ⟨left, expressions, _, same⟩
    rcases exists_mem_of_ne_nil _ some_ with ⟨operand, isPopulated⟩
    rcases mem_filter.mp isPopulated with ⟨isOperand, plain⟩
    have noVariable : operand.hasVariable = false := by simpa using plain
    have isBefore : operand ∈ predicate.before.map Prod.fst := by
      rcases mem_append.mp isOperand with inside | isLast
      · exact inside
      · rw [mem_singleton.mp isLast, ofLast] at noVariable
        cases noVariable
    rcases mem_map.mp isBefore with ⟨entry, isEntry, rfl⟩
    have backslash := backslash_mem_expression (escaping entry isEntry noVariable)
    have isExpression := mem_map_of_mem (f := GroupedExpression.expression) isPopulated
    rw [<- expressions] at isExpression
    rcases mem_map.mp isExpression with ⟨other, isOther, sameExpression⟩
    rw [<- sameExpression] at backslash
    have inText := mem_render isOther (mem_append_right _ (mem_append_left _ backslash))
    rw [<- same, returned] at inText
    exact absurd (mem_singleton.mp inText) (by decide)
  exact ⟨none_, aligned none_⟩

lemma aligned_of_keepsPopulated (keeps : KeepsPopulated predicate) :
    Matches (predicate.populated.map GroupedExpression.render).flatten ∧
      Aligned predicate.last false predicate.before := by
  have returned := invalidate_render predicate several
  cases scanned : scan predicate.last [] predicate.before with
  | none =>
    rcases aligned_of_scan_none several scanned keeps with ⟨none_, aligned⟩
    rw [none_]
    exact ⟨rfl, aligned⟩
  | some after =>
    have visible := scan_words
      (fun word => ∀ c ∈ word, asciiIsSpace c = false)
      (fun _ => predicate.last.render_spaceFree) scanned
      (fun entry _ _ => entry.1.render_spaceFree) operatorText_spaceFree
      (forall_mem_nil _)
    have wordsOf : ∀ word ∈ after.flatten, ∃ piece ∈ after,
        word ∈ piece := fun word member => mem_flatten.mp member
    rw [scanned] at returned
    dsimp only at returned
    rw [pieceText_pieces fun piece member => (visible piece member).1] at returned
    unfold KeepsPopulated at keeps
    by_cases none_ : predicate.populated = []
    · rw [if_pos none_, returned] at keeps
      have withVariable : ∀ operand ∈ predicate.operands, operand.hasVariable = true := by
        intro operand isOperand
        have dropped := filter_eq_nil_iff.mp none_ operand isOperand
        simpa using dropped
      have operators := scan_words (fun word => ∃ op, word = operatorText op) (fun plain => by
          rw [withVariable _ (mem_append_right _ (mem_singleton_self _))] at plain
          cases plain)
        scanned
        (fun entry member plain => by
          rw [withVariable _ (mem_append_left _ (mem_map_of_mem member))] at plain
          cases plain)
        (fun op => ⟨op, rfl⟩) (forall_mem_nil _)
      apply absurd keeps
      apply operators_ne_selectAll
      intro word member
      rcases wordsOf word member with ⟨piece, isPiece, isWord⟩
      exact (operators piece isPiece).2 word isWord
    · rw [if_neg none_] at keeps
      rcases keeps with ⟨left, expressions, matched, same⟩
      have words : after.flatten = left.words := by
        apply words_unique
        · intro word member
          rcases wordsOf word member with ⟨piece, isPiece, isWord⟩
          exact (visible piece isPiece).2 word isWord
        · rw [<- same, returned]
          rfl
      have asMany : left.operands.length = predicate.populated.length := by
        simpa using congrArg List.length expressions
      have bound := scan_bound scanned (@Filled.nil false) ⟨0, rfl⟩
        (by rw [words]; exact left.alternate)
      have aligned : Aligned predicate.last false predicate.before := by
        apply bound.2
        rw [words, left.length_words, asMany, flatten_nil, length_nil, Nat.zero_add]
      refine ⟨?_, aligned⟩
      have sofar : ([] : List (List Text)).flatten = doneWords [] := rfl
      rcases scan_of_aligned aligned Filled.nil sofar with
        ⟨impossible, _⟩ | ⟨others, right, alsoScanned, _, operands, alsoWords⟩
      · rw [scanned] at impossible
        cases impossible
      · rw [scanned] at alsoScanned
        cases alsoScanned
        rw [JoinedPredicate.render, <- words, alsoWords] at matched
        have matchedRight : Matches right.render := matched
        rw [matches_render_iff, operands] at matchedRight
        exact matchedRight

end

end

/-- What is left is a predicate with exactly the populated expressions, exactly if their parentheses
match by themselves and no escaped blank moves the pieces. -/
theorem invalidateUnpopulatedVariables_keeps_iff :
    ∀ predicate : JoinedPredicate, predicate.before ≠ [] ->
      (KeepsPopulated predicate ↔
        Matches (predicate.populated.map GroupedExpression.render).flatten ∧
          Aligned predicate.last false predicate.before) := by
  intro predicate several
  constructor
  · exact aligned_of_keepsPopulated several
  · rintro ⟨matched, aligned⟩
    exact keepsPopulated_of_aligned several matched aligned

/-- Three conditions, of which the second one has a variable. -/
def variableInBetween : JoinedPredicate :=
  ⟨[(⟨0, text "ReadingType=Temperature", 0, by decide, forall_of_none (by decide),
        fun op => by cases op <;> decide⟩, .and),
    (⟨0, text "ReadingUnits=$Units", 0, by decide, forall_of_none (by decide),
        fun op => by cases op <;> decide⟩, .and)],
   ⟨0, text "Reading>50", 0, by decide, forall_of_none (by decide),
        fun op => by cases op <;> decide⟩⟩

theorem invalidateUnpopulatedVariables_keeps_two : KeepsPopulated variableInBetween := by
  apply (invalidateUnpopulatedVariables_keeps_iff variableInBetween (List.cons_ne_nil _ _)).mpr
  refine ⟨by decide +kernel, ?_⟩
  intro _
  decide

/-- A group of two conditions, of which the first one has a variable, and a third one. -/
def variableInGroup : JoinedPredicate :=
  ⟨[(⟨1, text "ReadingType=$Type", 0, by decide, forall_of_none (by decide),
        fun op => by cases op <;> decide⟩, .and),
    (⟨0, text "Reading>50", 1, by decide, forall_of_none (by decide),
        fun op => by cases op <;> decide⟩, .or)],
   ⟨0, text "Name=Fan", 0, by decide, forall_of_none (by decide), fun op => by cases op <;> decide⟩⟩

/-- The group begins at a condition that goes, and ends at one that stays. -/
theorem invalidateUnpopulatedVariables_half_group :
    ¬ ∀ predicate : JoinedPredicate, predicate.before ≠ [] -> Matches predicate.render ->
      KeepsPopulated predicate := by
  intro always
  have keeps := always variableInGroup (List.cons_ne_nil _ _) (by decide +kernel)
  have some_ : variableInGroup.populated ≠ [] := by
    intro none_
    have count := congrArg List.length none_
    exact absurd count (by decide)
  rcases keeps with ⟨left, _, matched, same⟩
  rw [<- same] at matched
  exact absurd matched (by decide +kernel)

end Ecclesia.StepPlanner
