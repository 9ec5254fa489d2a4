import Ecclesia.Library.FlatExpression

namespace Ecclesia

open Bool

/-!
# Flat expressions read with precedence

The same sequence of operands and connectives can be read with conjunctions binding
tighter than disjunctions.  Such a reading is weaker than the reading from left to
right: what is true from left to right is true with precedence.
-/

variable {α : Type}

mutual

def Operand.precedenceValue (atom : α -> Bool) : Operand α -> Bool
  | .atom content => atom content
  | .group _ body _ => (body.precedence atom).1 || (body.precedence atom).2

/-- Whether one of the finished conjunctions is true, and whether the conjunction that
is being read is true. -/
def Expression.precedence (atom : α -> Bool) : Expression α -> Bool × Bool
  | .single operand => (false, operand.precedenceValue atom)
  | .join left _ .and _ right =>
    ((left.precedence atom).1, (left.precedence atom).2 && right.precedenceValue atom)
  | .join left _ .or _ right =>
    ((left.precedence atom).1 || (left.precedence atom).2, right.precedenceValue atom)

end

/-- The value of an expression under precedence: one of its conjunctions is true. -/
def Expression.precedenceValue (atom : α -> Bool) (expression : Expression α) : Bool :=
  (expression.precedence atom).1 || (expression.precedence atom).2

mutual

theorem Operand.precedenceValue_of_value {atom : α -> Bool} (operand : Operand α)
    (holds : operand.value atom = true) : operand.precedenceValue atom = true := by
  cases operand with
  | atom content => exact holds
  | group after body before => exact Expression.precedenceValue_of_value body holds

theorem Expression.precedenceValue_of_value {atom : α -> Bool} (expression : Expression α)
    (holds : expression.value atom = true) : expression.precedenceValue atom = true := by
  cases expression with
  | single operand =>
    exact Operand.precedenceValue_of_value operand holds
  | join left before op after right =>
    have weaker : left.value atom = true ->
        (left.precedence atom).1 = true ∨ (left.precedence atom).2 = true := by
      intro holdsLeft
      exact or_eq_true_iff.mp (Expression.precedenceValue_of_value left holdsLeft)
    cases op with
    | and =>
      rcases and_eq_true_iff.mp holds with ⟨holdsLeft, holdsRight⟩
      have right := Operand.precedenceValue_of_value right holdsRight
      rw [Expression.precedenceValue, Expression.precedence, right, Bool.and_true, or_eq_true]
      exact weaker holdsLeft
    | or =>
      rw [Expression.precedenceValue, Expression.precedence, or_eq_true, or_eq_true]
      rcases or_eq_true_iff.mp holds with holdsLeft | holdsRight
      · exact .inl (weaker holdsLeft)
      · exact .inr (Operand.precedenceValue_of_value right holdsRight)

end

/-- One expression written behind another one, without parentheses. -/
def Expression.append (left : Expression α) (op : Connective) : Expression α -> Expression α
  | .single operand => .join left 0 op 0 operand
  | .join first before joint after right => .join (left.append op first) before joint after right

lemma Expression.precedence_append_or (atom : α -> Bool) (left right : Expression α) :
    (left.append .or right).precedence atom =
      (left.precedenceValue atom || (right.precedence atom).1, (right.precedence atom).2) := by
  cases right with
  | single operand =>
    rw [Expression.precedence, Bool.or_false]
    rfl
  | join first before op after operand =>
    have ih := Expression.precedence_append_or atom left first
    cases op with
    | and => rw [Expression.append, Expression.precedence, Expression.precedence, ih]
    | or =>
      rw [Expression.append, Expression.precedence, Expression.precedence, ih]
      simp only [Bool.or_assoc]

/-- A disjunction written without parentheses is a disjunction of its parts. -/
lemma Expression.precedenceValue_append_or (atom : α -> Bool) (left right : Expression α) :
    (left.append .or right).precedenceValue atom =
      (left.precedenceValue atom || right.precedenceValue atom) := by
  rw [Expression.precedenceValue, Expression.precedence_append_or, Bool.or_assoc]
  rfl

end Ecclesia
