import Ecclesia.Predicates.Rule

namespace Ecclesia.Predicates

open Absl List Bool

/-!
# Well-formed predicates and how they are cut

A well-formed predicate is a flat expression over atoms.  The splitter only
knows blanks, quotes and escapes, so it does not return the tree: a piece is
an atom together with the parentheses that touch it, a run of parentheses
between blanks, or a connective.  The main result of this module computes the
pieces of every well-formed predicate from its tree.
-/

/-- A text that the splitter keeps in one piece: every blank is escaped or quoted. -/
def isOnePiece : Bool -> Bool -> Text -> Bool
  | escaped, inQuotes, [] => !escaped && !inQuotes
  | true, inQuotes, _ :: rest => isOnePiece false inQuotes rest
  | false, inQuotes, c :: rest =>
    if c = '\\' then isOnePiece true inQuotes rest
    else if c = '\'' then isOnePiece false (!inQuotes) rest
    else (inQuotes || c != ' ') && isOnePiece false inQuotes rest

/-- The text of one operand, without parentheses at its ends, but for those of `last()`. -/
structure Atom where
  text : Text
  onePiece : isOnePiece false false text = true
  notOperator : logicalOperator? text = none
  starts : ∃ c rest, text = c :: rest ∧ c ≠ '(' ∧ asciiIsSpace c = false
  ends : ∃ c rest, text.reverse = c :: rest ∧ asciiIsSpace c = false
  closes : text = selectLastIndex ∨ (text.reverse.head? ≠ some ')' ∧ text ≠ Ecclesia.text "last(")

def blanks (count : Nat) : Text :=
  List.replicate count ' '

/-- The word of a connective. -/
def operatorText : Connective -> Text
  | .and => text "and"
  | .or => text "or"

mutual

def renderOperand : Operand Atom -> Text
  | .atom content => content.text
  | .group after body before =>
    '(' :: (blanks after ++ (renderExpression body ++ (blanks before ++ [')'])))

/-- The predicate as it is written. -/
def renderExpression : Expression Atom -> Text
  | .single operand => renderOperand operand
  | .join left before op after right =>
    renderExpression left ++ (blanks (before + 1) ++ (operatorText op ++
      (blanks (after + 1) ++ renderOperand right)))

end

/-- A piece of a well-formed predicate between two blanks. -/
inductive Piece where
  | opens (count : Nat)
  | operand (opened : Nat) (content : Atom) (closed : Nat)
  | closes (count : Nat)
  | operator (op : Connective)

variable {piece : Piece}

namespace Piece

def render : Piece -> Text
  | .opens count => List.replicate count '('
  | .operand opened content closed =>
    List.replicate opened '(' ++ (content.text ++ List.replicate closed ')')
  | .closes count => List.replicate count ')'
  | .operator op => operatorText op

def close : Piece -> Piece
  | .operand opened content closed => .operand opened content (closed + 1)
  | .closes count => .closes (count + 1)
  | other => other

/-- Pieces that may receive a closing parenthesis. -/
def Closable : Piece -> Prop
  | .operand _ _ _ => True
  | .closes _ => True
  | _ => False

lemma render_close (closable : piece.Closable) : piece.close.render = piece.render ++ [')'] := by
  cases piece with
  | opens count => exact False.elim closable
  | operand opened content closed =>
    simp only [close, render, replicate_succ', append_assoc]
  | closes count => simp only [close, render, replicate_succ']
  | operator op => exact False.elim closable

lemma close_closable (closable : piece.Closable) : piece.close.Closable := by
  cases piece with
  | opens count => exact False.elim closable
  | operand opened content closed => trivial
  | closes count => trivial
  | operator op => exact False.elim closable

end Piece

/-- A closing parenthesis after `before` blanks: it joins the current piece, or
starts a new one. -/
def closePieces (scanned : List Piece × Piece) (before : Nat) : List Piece × Piece :=
  if before = 0 then (scanned.1, scanned.2.close)
  else (scanned.1 ++ [scanned.2], .closes 1)

mutual

/-- The finished pieces and the current piece of an operand that follows
`pending` opening parentheses. -/
def operandPieces (pending : Nat) : Operand Atom -> List Piece × Piece
  | .atom content => ([], .operand pending content 0)
  | .group after body before =>
    if after = 0 then closePieces (expressionPieces (pending + 1) body) before
    else
      let scanned := expressionPieces 0 body
      closePieces (.opens (pending + 1) :: scanned.1, scanned.2) before

def expressionPieces (pending : Nat) : Expression Atom -> List Piece × Piece
  | .single operand => operandPieces pending operand
  | .join left _ op _ right =>
    let first := expressionPieces pending left
    let second := operandPieces 0 right
    (first.1 ++ first.2 :: .operator op :: second.1, second.2)

end

variable {expressions : List Text}

namespace SplitState

/-- Outside of quotes and escapes, with the given current expression. -/
def between (expressions : List Text) (current : Text) : SplitState :=
  ⟨expressions, current, false, false⟩

lemma run_append (state : SplitState) (first second : Text) :
    state.run (first ++ second) = (state.run first).run second :=
  foldl_append

lemma run_cons (state : SplitState) (c : Char) (rest : Text) :
    state.run (c :: rest) = (state.step c).run rest := rfl

/-- A text that is one piece is appended to the current expression, whatever
the scan has met before. -/
lemma run_onePiece (t : Text) (expressions : List Text) (current : Text)
    (escaped inQuotes : Bool) (whole : isOnePiece escaped inQuotes t = true) :
    (SplitState.mk expressions current escaped inQuotes).run t =
      between expressions (current ++ t) := by
  induction t generalizing current escaped inQuotes with
  | nil =>
    have flags : escaped = false ∧ inQuotes = false := by
      simpa only [isOnePiece, and_eq_true, not_eq_true'] using whole
    rw [flags.1, flags.2, append_nil]
    rfl
  | cons c rest ih =>
    have regroup : current ++ c :: rest = (current ++ [c]) ++ rest := (append_cons current c rest)
    rw [regroup, run_cons]
    cases escaped with
    | true =>
      exact ih (current ++ [c]) false inQuotes whole
    | false =>
      by_cases backslash : c = '\\'
      · simp only [backslash] at whole
        have stepped : (SplitState.mk expressions current false inQuotes).step c =
            ⟨expressions, current ++ [c], true, inQuotes⟩ := by
          simp [step, backslash]
        rw [stepped]
        exact ih (current ++ [c]) true inQuotes whole
      · by_cases quote : c = '\''
        · simp only [quote] at whole
          have stepped : (SplitState.mk expressions current false inQuotes).step c =
              ⟨expressions, current ++ [c], false, !inQuotes⟩ := by
            simp [step, quote]
          rw [stepped]
          exact ih (current ++ [c]) false (!inQuotes) whole
        · simp only [isOnePiece, if_neg backslash, if_neg quote, and_eq_true, or_eq_true,
            bne_iff_ne] at whole
          have kept : (!inQuotes && c == ' ') = false := by
            rcases whole.1 with quoted | other
            · simp [quoted]
            · simp [other]
          have stepped : (SplitState.mk expressions current false inQuotes).step c =
              ⟨expressions, current ++ [c], false, inQuotes⟩ := by
            simp [step, backslash, quote, kept]
          rw [stepped]
          exact ih (current ++ [c]) false inQuotes whole.2

lemma between_run_onePiece {t : Text} (whole : isOnePiece false false t = true)
    (expressions : List Text) (current : Text) :
    (between expressions current).run t = between expressions (current ++ t) :=
  run_onePiece t expressions current false false whole

lemma run_parens (c : Char) (paren : c = '(' ∨ c = ')') (count : Nat)
    (expressions : List Text) (current : Text) :
    (between expressions current).run (replicate count c) =
      between expressions (current ++ replicate count c) := by
  apply between_run_onePiece
  induction count with
  | zero => rfl
  | succ count ih =>
    rcases paren with rfl | rfl <;> simpa [replicate_succ, isOnePiece] using ih

lemma run_blanks (count : Nat) (expressions : List Text) (current : Text) :
    (between expressions current).run (blanks (count + 1)) =
      between (between expressions current).flush [] := by
  induction count generalizing expressions current with
  | zero => rfl
  | succ count ih =>
    change ((between expressions current).step ' ').run (blanks (count + 1)) = _
    have stepped : (between expressions current).step ' ' =
        between (between expressions current).flush [] := rfl
    rw [stepped, ih]
    rfl

lemma flush_between {current : Text} (present : current ≠ []) :
    (between expressions current).flush = expressions ++ [current] := by
  have nonempty : current.isEmpty = false := by
    simpa [List.isEmpty_iff] using present
  simp [flush, between, nonempty]

end SplitState

lemma Atom.text_ne_nil (content : Atom) : content.text ≠ [] := by
  rcases content.starts with ⟨c, rest, equal, _, _⟩
  rw [equal]
  exact cons_ne_nil c rest

/-- A piece that stands between blanks is not the empty text. -/
def Piece.Present : Piece -> Prop
  | .opens count => 0 < count
  | .closes count => 0 < count
  | _ => True

lemma Piece.render_ne_nil (present : piece.Present) : piece.render ≠ [] := by
  cases piece with
  | opens count =>
    have positive : count ≠ 0 := Nat.ne_of_gt present
    simpa only [render, ne_eq, replicate_eq_nil_iff] using positive
  | operand opened content closed =>
    intro empty
    simp only [render, append_eq_nil_iff] at empty
    exact content.text_ne_nil empty.2.1
  | closes count =>
    have positive : count ≠ 0 := Nat.ne_of_gt present
    simpa only [render, ne_eq, replicate_eq_nil_iff] using positive
  | operator op => cases op <;> decide

lemma Piece.present_close (present : piece.Present) : piece.close.Present := by
  cases piece with
  | opens count => exact present
  | operand opened content closed => trivial
  | closes count => exact Nat.succ_pos count
  | operator op => trivial

/-- What a scan has established: finished pieces and one that may still be closed. -/
structure Scanned (expressions : List Text) (pieces : List Piece × Piece)
    (state : SplitState) : Prop where
  state_eq : state = SplitState.between (expressions ++ pieces.1.map Piece.render) pieces.2.render
  closable : pieces.2.Closable
  present : pieces.2.Present

lemma Scanned.run_blanks {pieces : List Piece × Piece}
    {state : SplitState} (scanned : Scanned expressions pieces state) (count : Nat) :
    state.run (blanks (count + 1)) =
      SplitState.between (expressions ++ (pieces.1 ++ [pieces.2]).map Piece.render) [] := by
  rw [scanned.state_eq, SplitState.run_blanks,
    SplitState.flush_between (Piece.render_ne_nil scanned.present), map_append,
    append_assoc]
  rfl

lemma Scanned.close {pieces : List Piece × Piece}
    {state : SplitState} (scanned : Scanned expressions pieces state) (before : Nat) :
    Scanned expressions (closePieces pieces before) (state.run (blanks before ++ [')'])) := by
  cases before with
  | zero =>
    refine ⟨?_, Piece.close_closable scanned.closable, Piece.present_close scanned.present⟩
    have appended := SplitState.run_parens ')' (.inr rfl) 1
      (expressions ++ pieces.1.map Piece.render) pieces.2.render
    simp only [closePieces, if_true, Piece.render_close scanned.closable]
    rw [scanned.state_eq]
    exact appended
  | succ before =>
    refine ⟨?_, trivial, Nat.one_pos⟩
    rw [SplitState.run_append, scanned.run_blanks]
    have appended := SplitState.run_parens ')' (.inr rfl) 1
      (expressions ++ (pieces.1 ++ [pieces.2]).map Piece.render) []
    exact appended

mutual

theorem scanned_operand (pending : Nat) (operand : Operand Atom) (expressions : List Text) :
    Scanned expressions (operandPieces pending operand)
      ((SplitState.between expressions (replicate pending '(')).run (renderOperand operand)) := by
  cases operand with
  | atom content =>
    refine ⟨?_, trivial, trivial⟩
    simp only [operandPieces, map_nil, append_nil, Piece.render, replicate_zero]
    exact SplitState.between_run_onePiece content.onePiece expressions _
  | group after body before =>
    -- The opening parenthesis joins the ones that are pending.
    have opened : (SplitState.between expressions (replicate pending '(')).step '(' =
        SplitState.between expressions (replicate (pending + 1) '(') := by
      rw [replicate_succ']
      rfl
    rw [renderOperand, SplitState.run_cons, opened, SplitState.run_append, SplitState.run_append]
    cases after with
    | zero =>
      have inner := scanned_expression (pending + 1) body expressions
      exact inner.close before
    | succ after =>
      have present : replicate (pending + 1) '(' ≠ [] := by
        simp [replicate_succ]
      have inner := scanned_expression 0 body (expressions ++ [replicate (pending + 1) '('])
      have regrouped : Scanned expressions
          (Piece.opens (pending + 1) :: (expressionPieces 0 body).1, (expressionPieces 0 body).2)
          ((SplitState.between (expressions ++ [replicate (pending + 1) '('])
            []).run (renderExpression body)) := by
        refine ⟨?_, inner.closable, inner.present⟩
        have equal := inner.state_eq
        rw [append_assoc] at equal
        exact equal
      rw [SplitState.run_blanks, SplitState.flush_between present]
      simpa only [operandPieces, Nat.succ_ne_zero, if_false] using regrouped.close before

theorem scanned_expression (pending : Nat) (expression : Expression Atom)
    (expressions : List Text) :
    Scanned expressions (expressionPieces pending expression)
      ((SplitState.between expressions (replicate pending '(')).run
        (renderExpression expression)) := by
  cases expression with
  | single operand => exact scanned_operand pending operand expressions
  | join left before op after right =>
    have first := scanned_expression pending left expressions
    have word : isOnePiece false false (operatorText op) = true := by
      cases op <;> decide
    have wordPresent : operatorText op ≠ [] := by
      cases op <;> decide
    rw [renderExpression, SplitState.run_append, SplitState.run_append, first.run_blanks,
      SplitState.run_append]
    have second := scanned_operand 0 right
      (expressions ++ ((expressionPieces pending left).1 ++
        [(expressionPieces pending left).2]).map Piece.render ++ [operatorText op])
    rw [SplitState.between_run_onePiece word, nil_append, SplitState.run_append,
      SplitState.run_blanks, SplitState.flush_between wordPresent]
    refine ⟨?_, second.closable, second.present⟩
    have equal := second.state_eq
    simpa [expressionPieces, Piece.render, append_assoc] using equal

end

/-- All pieces of a predicate, the last one included. -/
def allPieces (expression : Expression Atom) : List Piece :=
  (expressionPieces 0 expression).1 ++ [(expressionPieces 0 expression).2]

lemma splitExpressions_render (expression : Expression Atom) :
    splitExpressions (renderExpression expression) = (allPieces expression).map Piece.render := by
  have scanned := scanned_expression 0 expression []
  change (SplitState.flush ((SplitState.between [] (replicate 0 '(')).run _)) = _
  rw [scanned.state_eq, SplitState.flush_between (Piece.render_ne_nil scanned.present)]
  simp only [nil_append, allPieces, map_append, map_cons, map_nil]

/-- A text that begins and ends with a visible character. -/
def Trimmed (t : Text) : Prop :=
  (∃ c rest, t = c :: rest ∧ asciiIsSpace c = false) ∧
    ∃ c rest, t.reverse = c :: rest ∧ asciiIsSpace c = false

lemma Trimmed.strip {t : Text} (trimmed : Trimmed t) : stripAsciiWhitespace t = t := by
  rcases trimmed with ⟨⟨first, rest, starts, visible⟩, ⟨last, others, ends, visibleLast⟩⟩
  have leading : stripLeadingAsciiWhitespace t = t := by
    rw [starts, stripLeadingAsciiWhitespace, dropWhile_cons_of_neg (by simp [visible])]
  have trailing : stripTrailingAsciiWhitespace t = t := by
    rw [stripTrailingAsciiWhitespace, ends,
      dropWhile_cons_of_neg (by simp [visibleLast]), <- ends, reverse_reverse]
  rw [stripAsciiWhitespace, leading, trailing]

lemma trimmed_of_visible {t : Text} (nonempty : t ≠ [])
    (visible : ∀ c ∈ t, asciiIsSpace c = false) : Trimmed t := by
  constructor
  · cases t with
    | nil => exact absurd rfl nonempty
    | cons c rest => exact ⟨c, rest, rfl, visible c (.head _)⟩
  · cases reversed : t.reverse with
    | nil => exact absurd (reverse_eq_nil_iff.mp reversed) nonempty
    | cons c rest =>
      refine ⟨c, rest, rfl, visible c ?_⟩
      rw [<- mem_reverse, reversed]
      exact (.head _)

lemma Trimmed.append {first last : Text} (trimmedFirst : Trimmed first)
    (trimmedLast : Trimmed last) (between : Text) : Trimmed (first ++ (between ++ last)) := by
  rcases trimmedFirst.1 with ⟨c, rest, starts, visible⟩
  rcases trimmedLast.2 with ⟨d, others, ends, visibleLast⟩
  refine ⟨⟨c, rest ++ (between ++ last), ?_, visible⟩,
    ⟨d, others ++ (between.reverse ++ first.reverse), ?_, visibleLast⟩⟩
  · rw [starts, cons_append]
  · simp only [reverse_append, ends, cons_append, append_assoc]

mutual

theorem trimmed_operand (operand : Operand Atom) : Trimmed (renderOperand operand) := by
  cases operand with
  | atom content =>
    rcases content.starts with ⟨c, rest, starts, _, visible⟩
    exact ⟨⟨c, rest, starts, visible⟩, content.ends⟩
  | group after body before =>
    have opening : Trimmed ['('] := ⟨⟨'(', [], rfl, rfl⟩, ⟨'(', [], rfl, rfl⟩⟩
    have closing : Trimmed [')'] := ⟨⟨')', [], rfl, rfl⟩, ⟨')', [], rfl, rfl⟩⟩
    have joined := opening.append closing (blanks after ++ (renderExpression body ++ blanks before))
    simpa only [renderOperand, append_assoc, singleton_append] using joined

theorem trimmed_expression (expression : Expression Atom) :
    Trimmed (renderExpression expression) := by
  cases expression with
  | single operand => exact trimmed_operand operand
  | join left before op after right =>
    have joined := (trimmed_expression left).append (trimmed_operand right)
      (blanks (before + 1) ++ (operatorText op ++ blanks (after + 1)))
    simpa only [renderExpression, append_assoc] using joined

end

lemma render_ne_nil (expression : Expression Atom) : renderExpression expression ≠ [] := by
  rcases (trimmed_expression expression).1 with ⟨c, rest, starts, _⟩
  rw [starts]
  exact cons_ne_nil c rest

end Ecclesia.Predicates
