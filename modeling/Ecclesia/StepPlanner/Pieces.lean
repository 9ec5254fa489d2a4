import Ecclesia.Predicates.Grammar
import Ecclesia.StepPlanner.Handles

namespace Ecclesia.StepPlanner

open Absl List
open Predicates (operatorText Trimmed trimmed_of_visible)

/-!
# How a predicate is cut

The planner cuts a predicate at its blanks, where a blank after a backslash does not cut.  A
piece is an expression together with the parentheses at it, an operator, or an expression that
ends in a backslash with the operator after it.
-/

/-- An expression of a predicate, with the parentheses at it. -/
structure GroupedExpression where
  opens : Nat
  expression : Text
  closes : Nat
  present : expression ≠ []
  spaceFree : ∀ c ∈ expression, asciiIsSpace c = false
  notOperator : ∀ op, expression ≠ operatorText op

/-- Expressions with operators between them. -/
structure JoinedPredicate where
  before : List (GroupedExpression × Connective)
  last : GroupedExpression

namespace GroupedExpression

variable (operand : GroupedExpression)

def render : Text :=
  List.replicate operand.opens '(' ++ (operand.expression ++ List.replicate operand.closes ')')

def hasVariable : Bool :=
  strContains operand.render (text "$")

/-- The blank after the expression is read as a part of it. -/
def escapes : Bool :=
  endsWith operand.render (text "\\")

end GroupedExpression

namespace JoinedPredicate

variable (predicate : JoinedPredicate)

def operands : List GroupedExpression :=
  predicate.before.map Prod.fst ++ [predicate.last]

/-- What stands between the blanks. -/
def words : List Text :=
  predicate.before.flatMap (fun entry => [entry.1.render, operatorText entry.2]) ++
    [predicate.last.render]

def render : Text :=
  strJoin predicate.words (text " ")

/-- The operands that stay. -/
def populated : List GroupedExpression :=
  predicate.operands.filter fun operand => !operand.hasVariable

end JoinedPredicate

/-- The number of open parentheses, after one more character.  None can be closed if none is
open. -/
def nest (depth : Option Nat) (c : Char) : Option Nat :=
  if c = '(' then depth.map Nat.succ
  else if c = ')' then depth.bind fun opened => if opened = 0 then none else some (opened - 1)
  else depth

def Matches (t : Text) : Prop :=
  t.foldl nest (some 0) = some 0

instance (t : Text) : Decidable (Matches t) :=
  inferInstanceAs (Decidable (_ = _))

namespace GroupedExpression

variable {operand : GroupedExpression}

lemma render_ne_nil : operand.render ≠ [] := by
  intro empty
  rcases append_eq_nil_iff.mp empty with ⟨_, inside⟩
  exact operand.present (append_eq_nil_iff.mp inside).1

lemma render_spaceFree : ∀ c ∈ operand.render, asciiIsSpace c = false := by
  intro c member
  rcases mem_append.mp member with opening | inside
  · rw [eq_of_mem_replicate opening]
    decide
  · rcases mem_append.mp inside with visible | closing
    · exact operand.spaceFree c visible
    · rw [eq_of_mem_replicate closing]
      decide

lemma render_ne_operatorText (op : Connective) : operand.render ≠ operatorText op := by
  intro same
  have letters : '(' ∉ operatorText op ∧ ')' ∉ operatorText op := by
    cases op with
    | and => decide
    | or => decide
  have noOpening : operand.opens = 0 := by
    by_contra some_
    apply letters.1
    rw [<- same]
    exact mem_append_left _ (mem_replicate.mpr ⟨some_, rfl⟩)
  have noClosing : operand.closes = 0 := by
    by_contra some_
    apply letters.2
    rw [<- same]
    exact mem_append_right _ (mem_append_right _ (mem_replicate.mpr ⟨some_, rfl⟩))
  apply operand.notOperator op
  rw [<- same, render, noOpening, noClosing, replicate_zero, nil_append, replicate_zero, append_nil]

end GroupedExpression

lemma operatorText_spaceFree (op : Connective) : ∀ c ∈ operatorText op, asciiIsSpace c = false := by
  apply forall_of_none
  cases op with
  | and => decide
  | or => decide

lemma noBlank_of_spaceFree {t : Text} (visible : ∀ c ∈ t, asciiIsSpace c = false) : ' ' ∉ t := by
  intro blank
  exact absurd (visible ' ' blank) (by decide)

variable {word : Text}

namespace JoinedPredicate

variable {predicate : JoinedPredicate}

lemma words_ne_nil : predicate.words ≠ [] := append_ne_nil_of_right_ne_nil _ (cons_ne_nil _ _)

lemma mem_words (member : word ∈ predicate.words) :
    (∃ operand ∈ predicate.operands, word = operand.render) ∨ ∃ op, word = operatorText op := by
  rcases mem_append.mp member with inside | isLast
  · rcases mem_flatMap.mp inside with ⟨entry, isEntry, either⟩
    rcases mem_cons.mp either with rfl | isOperator
    · exact .inl ⟨entry.1, mem_append_left _ (mem_map_of_mem isEntry), rfl⟩
    · exact .inr ⟨entry.2, mem_singleton.mp isOperator⟩
  · refine .inl ⟨predicate.last, ?_, mem_singleton.mp isLast⟩
    exact mem_append_right _ (mem_singleton_self _)

lemma words_spaceFree (member : word ∈ predicate.words) : ∀ c ∈ word, asciiIsSpace c = false := by
  rcases mem_words member with ⟨operand, _, rfl⟩ | ⟨op, rfl⟩
  · exact operand.render_spaceFree
  · exact operatorText_spaceFree op

end JoinedPredicate

lemma words_unique {words : List Text} {predicate : JoinedPredicate}
    (visible : ∀ word ∈ words, ∀ c ∈ word, asciiIsSpace c = false)
    (same : strJoin words (text " ") = predicate.render) : words = predicate.words := by
  have split := congrArg (fun t => t.splitOn ' ') same
  have right : (predicate.render).splitOn ' ' = predicate.words :=
    splitOn_intercalate ' '
      (fun word member => noBlank_of_spaceFree (predicate.words_spaceFree member))
      predicate.words_ne_nil
  cases words with
  | nil =>
    rw [right] at split
    have empty : predicate.words = [[]] := split.symm
    have isLast : predicate.last.render ∈ predicate.words :=
      mem_append_right _ (mem_singleton_self _)
    rw [empty] at isLast
    exact absurd (mem_singleton.mp isLast) predicate.last.render_ne_nil
  | cons word rest =>
    rw [right] at split
    rw [<- split]
    exact (splitOn_intercalate ' '
      (fun word member => noBlank_of_spaceFree (visible word member))
      (cons_ne_nil _ _)).symm

/-- Operands and operators alternate. -/
structure Alternate (words : List Text) : Prop where
  odd : Odd words.length
  operands : ∀ (index : Nat) (word : Text), words[index]? = some word -> Even index ->
    ∀ op, word ≠ operatorText op

lemma JoinedPredicate.alternate (predicate : JoinedPredicate) : Alternate predicate.words := by
  rcases predicate with ⟨before, last⟩
  induction before with
  | nil =>
    refine ⟨odd_one, ?_⟩
    intro index word isWord _ op
    cases index with
    | zero =>
      cases isWord
      exact last.render_ne_operatorText op
    | succ index => cases isWord
  | cons entry rest ih =>
    constructor
    · exact ih.odd.add_even even_two
    · intro index word isWord isEven op
      match index with
      | 0 =>
        cases isWord
        exact entry.1.render_ne_operatorText op
      | 1 => exact absurd isEven (by decide)
      | index + 2 => exact ih.operands index word isWord (by simpa [Nat.even_add] using isEven) op

def pieces (last : GroupedExpression) : List (GroupedExpression × Connective) -> List (List Text)
  | [] => [[last.render]]
  | (operand, op) :: rest =>
    if operand.escapes then [operand.render, operatorText op] :: pieces last rest
    else [operand.render] :: [operatorText op] :: pieces last rest

def pieceText (words : List Text) : Text :=
  strJoin words (text " ")

lemma pieces_ne_nil {last : GroupedExpression}
    (before : List (GroupedExpression × Connective)) : pieces last before ≠ [] := by
  cases before with
  | nil => exact cons_ne_nil _ _
  | cons entry rest =>
    rcases entry with ⟨operand, op⟩
    rw [pieces]
    split <;> exact cons_ne_nil _ _

open PathUtil in
lemma splitUnescaped_append (noBlank : ' ' ∉ word) :
    ∀ (previous : Char) (current rest : Text),
      splitUnescaped ' ' '\\' previous current (word ++ rest) =
        splitUnescaped ' ' '\\' (word.getLastD previous) (current ++ word) rest := by
  induction word with
  | nil =>
    intro previous current rest
    rw [append_nil]
    rfl
  | cons c word ih =>
    intro previous current rest
    have noCut : ¬ (c = ' ' ∧ previous ≠ '\\') := by
      rintro ⟨rfl, _⟩
      exact noBlank (.head _)
    rw [cons_append, splitUnescaped, if_neg noCut,
      ih (fun member => noBlank (mem_cons_of_mem c member)), append_assoc,
      getLastD_cons]
    rfl

lemma endsWith_backslash (nonempty : word ≠ []) (c : Char) :
    endsWith word (text "\\") = true ↔ word.getLastD c = '\\' := by
  rcases eq_nil_or_concat word with rfl | ⟨init, last, rfl⟩
  · exact absurd rfl nonempty
  · rw [endsWith, isSuffixOf_iff_suffix, concat_eq_append]
    have single : text "\\" = ['\\'] := rfl
    rw [getLastD_concat]
    constructor
    · rintro ⟨other, same⟩
      exact (cons.inj (append_inj' same rfl).2).1.symm
    · rintro rfl
      exact suffix_append init _

lemma JoinedPredicate.render_nil (last : GroupedExpression) :
    JoinedPredicate.render ⟨[], last⟩ = last.render := by
  change (text " ").intercalate [last.render] = last.render
  exact intercalate_singleton

lemma JoinedPredicate.render_cons (operand : GroupedExpression) (op : Connective)
    (rest : List (GroupedExpression × Connective)) (last : GroupedExpression) :
    JoinedPredicate.render ⟨(operand, op) :: rest, last⟩ =
      operand.render ++ (' ' :: (operatorText op ++
        (' ' :: JoinedPredicate.render ⟨rest, last⟩))) := by
  have shape : JoinedPredicate.words ⟨(operand, op) :: rest, last⟩ =
      operand.render :: operatorText op :: JoinedPredicate.words ⟨rest, last⟩ := rfl
  unfold JoinedPredicate.render strJoin
  rw [shape, intercalate_cons_cons, intercalate_cons_of_ne_nil (JoinedPredicate.words_ne_nil)]
  simp [text]

open PathUtil in
lemma splitUnescaped_render (last : GroupedExpression) :
    ∀ (before : List (GroupedExpression × Connective)) (previous : Char) (current : Text),
      splitUnescaped ' ' '\\' previous current (JoinedPredicate.render ⟨before, last⟩) =
        match (pieces last before).map pieceText with
        | [] => []
        | piece :: rest => (current ++ piece) :: rest := by
  intro before
  induction before with
  | nil =>
    intro previous current
    have whole := splitUnescaped_append
      (noBlank_of_spaceFree last.render_spaceFree) previous current []
    rw [append_nil] at whole
    have piece : pieceText [last.render] = last.render := JoinedPredicate.render_nil last
    rw [JoinedPredicate.render_nil, whole]
    simp only [pieces, map_cons, piece]
    rfl
  | cons entry rest ih =>
    intro previous current
    rcases entry with ⟨operand, op⟩
    have fromStart : splitUnescaped ' ' '\\' ' ' [] (JoinedPredicate.render ⟨rest, last⟩) =
        (pieces last rest).map pieceText := by
      rw [ih]
      cases (pieces last rest).map pieceText with
      | nil => rfl
      | cons piece others => rfl
    have throughOperator : ∀ (c : Char) (before : Text),
        splitUnescaped ' ' '\\' c before
          (operatorText op ++ ' ' :: JoinedPredicate.render ⟨rest, last⟩) =
        (before ++ operatorText op) :: (pieces last rest).map pieceText := by
      intro c before
      have noEscapeAfter : (operatorText op).getLastD c ≠ '\\' := by
        cases op with
        | and => exact (by decide : 'd' ≠ '\\')
        | or => exact (by decide : 'r' ≠ '\\')
      rw [splitUnescaped_append (noBlank_of_spaceFree (operatorText_spaceFree op)),
        splitUnescaped, if_pos ⟨rfl, noEscapeAfter⟩, fromStart]
    rw [JoinedPredicate.render_cons,
      splitUnescaped_append (noBlank_of_spaceFree operand.render_spaceFree), splitUnescaped]
    have ending := endsWith_backslash operand.render_ne_nil previous
    by_cases escapes : operand.escapes = true
    · have isEscape := ending.mp escapes
      have noCut : ¬ (' ' = ' ' ∧ operand.render.getLastD previous ≠ '\\') :=
        fun cut => cut.2 isEscape
      rw [if_neg noCut, throughOperator ' ' _, pieces, if_pos escapes]
      simp [pieceText, strJoin, text]
    · have isCut : ' ' = ' ' ∧ operand.render.getLastD previous ≠ '\\' :=
        ⟨rfl, fun isEscape => escapes (ending.mpr isEscape)⟩
      rw [if_pos isCut, throughOperator ' ' _, pieces, if_neg escapes]
      simp [pieceText, strJoin]

lemma GroupedExpression.trimmed (operand : GroupedExpression) : Trimmed operand.render :=
  trimmed_of_visible operand.render_ne_nil operand.render_spaceFree

lemma JoinedPredicate.trimmed (predicate : JoinedPredicate) : Trimmed predicate.render := by
  rcases predicate with ⟨before, last⟩
  induction before with
  | nil =>
    rw [JoinedPredicate.render_nil]
    exact last.trimmed
  | cons entry rest ih =>
    rcases entry with ⟨operand, op⟩
    rw [JoinedPredicate.render_cons]
    have between := operand.trimmed.append ih (' ' :: (operatorText op ++ [' ']))
    simpa using between

open PathUtil in
lemma splitExpr_render (predicate : JoinedPredicate) :
    splitExprByDelimiterWithEscape predicate.render ' ' '\\' =
      (pieces predicate.last predicate.before).map pieceText := by
  unfold splitExprByDelimiterWithEscape
  rw [predicate.trimmed.strip]
  rcases predicate.trimmed.1 with ⟨c, rest, starts, visible⟩
  have whole := splitUnescaped_render predicate.last predicate.before 'a' []
  have notBlank : c ≠ ' ' := by
    rintro rfl
    cases visible
  have noCut : ¬ (c = ' ' ∧ 'a' ≠ '\\') := fun cut => notBlank cut.1
  rw [starts, splitUnescaped, if_neg noCut] at whole
  rw [starts]
  simp only [if_neg notBlank]
  rw [nil_append] at whole
  rw [whole]
  cases (pieces predicate.last predicate.before).map pieceText with
  | nil => rfl
  | cons piece others => rfl

end Ecclesia.StepPlanner
