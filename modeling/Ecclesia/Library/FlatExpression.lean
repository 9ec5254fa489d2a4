import Mathlib.Data.Bool.Basic

namespace Ecclesia

/-!
# Boolean connectives with a fixed operand

Combining a boolean with a fixed operand under conjunction or disjunction
leaves no third possibility: the combination is the identity, or it forgets
the other operand altogether.  Every law below is a consequence, and holds for
an arbitrary function between two applications of the same combination.
-/

/-- The two binary connectives of a flat boolean expression. -/
inductive Connective where
  | and
  | or
deriving DecidableEq, Repr

namespace Connective

def combine : Connective -> Bool -> Bool -> Bool
  | .and, left, right => left && right
  | .or, left, right => left || right

variable (op : Connective)

lemma combine_comm (left right : Bool) : op.combine left right = op.combine right left := by
  cases op with
  | and => exact Bool.and_comm left right
  | or => exact Bool.or_comm left right

variable (value : Bool)

@[simp] lemma and_combine_true : Connective.and.combine true value = value := Bool.true_and value

@[simp] lemma and_combine_true_right : Connective.and.combine value true = value :=
  Bool.and_true value

@[simp] lemma combine_self : op.combine value value = value := by
  cases op with
  | and => exact Bool.and_self value
  | or => exact Bool.or_self value

/-- The operand that a connective cannot recover from. -/
def dominant : Connective -> Bool
  | .and => false
  | .or => true

@[simp] lemma combine_dominant : op.combine value op.dominant = op.dominant := by
  cases op <;> cases value <;> rfl

@[simp] lemma combine_not_dominant : op.combine value (!op.dominant) = value := by
  cases op <;> cases value <;> rfl

lemma combine_constant_or_identity (fixed : Bool) :
    (∀ value, op.combine value fixed = op.dominant) ∨
      (∀ value, op.combine value fixed = value) := by
  by_cases settled : fixed = op.dominant
  · subst settled
    exact .inl (combine_dominant op)
  · have other : fixed = !op.dominant := Bool.eq_not_of_ne settled
    subst other
    exact .inr (combine_not_dominant op)

/-- Absorption: what happens between two applications of a combination is not observable. -/
lemma combine_absorbs (fixed : Bool) (between : Bool -> Bool) {left right : Bool}
    (same : op.combine left fixed = op.combine right fixed) :
    op.combine (between left) fixed = op.combine (between right) fixed := by
  rcases combine_constant_or_identity op fixed with constant | identity
  · rw [constant, constant]
  · rw [identity, identity] at same
    rw [same]

lemma combine_idempotent (fixed value : Bool) :
    op.combine (op.combine value fixed) fixed = op.combine value fixed := by
  rcases combine_constant_or_identity op fixed with constant | identity
  · rw [constant, constant]
  · rw [identity]

end Connective

/-!
## Expressions without precedence

A flat expression is a sequence of operands joined by connectives.  There is
no precedence: the expression is read strictly from left to right, and only a
parenthesised group changes the order.  Groups carry the number of blanks
written behind the opening and before the closing parenthesis, because the
layout is part of what a scanner sees; the value never depends on them.

The operands are of an arbitrary type, and may fail to evaluate.
-/

mutual

/-- One operand: an atom or a group in parentheses. -/
inductive Operand (α : Type) where
  | atom (content : α)
  | group (blanksAfter : Nat) (body : Expression α) (blanksBefore : Nat)

/-- Operands joined from left to right, with at least one blank around a connective; the fields
count the others. -/
inductive Expression (α : Type) where
  | single (operand : Operand α)
  | join (left : Expression α) (blanksLeft : Nat) (op : Connective) (blanksRight : Nat)
      (right : Operand α)

end

variable {α β ε : Type}

mutual

def Operand.evaluate (atom : α -> Except ε Bool) : Operand α -> Except ε Bool
  | .atom content => atom content
  | .group _ body _ => body.evaluate atom

def Expression.evaluate (atom : α -> Except ε Bool) : Expression α -> Except ε Bool
  | .single operand => operand.evaluate atom
  | .join left _ op _ right => do
      let first <- left.evaluate atom
      let second <- right.evaluate atom
      return op.combine first second

end

mutual

def Operand.value (atom : α -> Bool) : Operand α -> Bool
  | .atom content => atom content
  | .group _ body _ => body.value atom

def Expression.value (atom : α -> Bool) : Expression α -> Bool
  | .single operand => operand.value atom
  | .join left _ op _ right => op.combine (left.value atom) (right.value atom)

end

mutual

def Operand.atoms : Operand α -> List α
  | .atom content => [content]
  | .group _ body _ => body.atoms

def Expression.atoms : Expression α -> List α
  | .single operand => operand.atoms
  | .join left _ _ _ right => left.atoms ++ right.atoms

end

mutual

/-- Write every parenthesis directly against its neighbour. -/
def Operand.compact : Operand α -> Operand α
  | .atom content => .atom content
  | .group _ body _ => .group 0 body.compact 0

def Expression.compact : Expression α -> Expression α
  | .single operand => .single operand.compact
  | .join left before op after right => .join left.compact before op after right.compact

end

mutual

def Operand.map (f : α -> β) : Operand α -> Operand β
  | .atom content => .atom (f content)
  | .group after body before => .group after (body.map f) before

def Expression.map (f : α -> β) : Expression α -> Expression β
  | .single operand => .single (operand.map f)
  | .join left before op after right => .join (left.map f) before op after (right.map f)

end

/-- Parentheses, connectives and layout, without the atoms. -/
def Expression.shape (expression : Expression α) : Expression Unit :=
  expression.map fun _ => ()

def Operand.shape (operand : Operand α) : Operand Unit :=
  operand.map fun _ => ()

mutual

def Operand.ClosesDirectly : Operand α -> Prop
  | .atom _ => True
  | .group _ body before => body.ClosesDirectly ∧ before = 0

def Expression.ClosesDirectly : Expression α -> Prop
  | .single operand => operand.ClosesDirectly
  | .join left _ _ _ right => left.ClosesDirectly ∧ right.ClosesDirectly

end

mutual

def Operand.OpensAtStart : Operand α -> Prop
  | .atom _ => True
  | .group _ body _ => body.OpensAtStart

/-- Every parenthesis is opened at the very beginning: no connective is
followed by a group. -/
def Expression.OpensAtStart : Expression α -> Prop
  | .single operand => operand.OpensAtStart
  | .join left _ _ _ right => left.OpensAtStart ∧ ∃ content, right = .atom content

end

mutual

theorem Operand.evaluate_eq_value {atom : α -> Except ε Bool} {value : α -> Bool}
    (operand : Operand α) (evaluates : ∀ a ∈ operand.atoms, atom a = .ok (value a)) :
    operand.evaluate atom = .ok (operand.value value) := by
  cases operand with
  | atom content => exact evaluates content (List.mem_singleton_self content)
  | group after body before => exact Expression.evaluate_eq_value body evaluates

theorem Expression.evaluate_eq_value {atom : α -> Except ε Bool} {value : α -> Bool}
    (expression : Expression α)
    (evaluates : ∀ a ∈ expression.atoms, atom a = .ok (value a)) :
    expression.evaluate atom = .ok (expression.value value) := by
  cases expression with
  | single operand => exact Operand.evaluate_eq_value operand evaluates
  | join left before op after right =>
    have first := Expression.evaluate_eq_value left
      (fun a member => evaluates a (List.mem_append_left _ member))
    have second := Operand.evaluate_eq_value right
      (fun a member => evaluates a (List.mem_append_right _ member))
    simp only [Expression.evaluate, first, second]
    rfl

end

mutual

@[simp] theorem Operand.evaluate_compact (atom : α -> Except ε Bool) (operand : Operand α) :
    operand.compact.evaluate atom = operand.evaluate atom := by
  cases operand with
  | atom content => rfl
  | group after body before => exact Expression.evaluate_compact atom body

@[simp] theorem Expression.evaluate_compact (atom : α -> Except ε Bool)
    (expression : Expression α) :
    expression.compact.evaluate atom = expression.evaluate atom := by
  cases expression with
  | single operand => exact Operand.evaluate_compact atom operand
  | join left before op after right =>
    simp only [Expression.compact, Expression.evaluate, Expression.evaluate_compact atom left,
      Operand.evaluate_compact atom right]

end

mutual

theorem Operand.compact_closesDirectly (operand : Operand α) : operand.compact.ClosesDirectly := by
  cases operand with
  | atom content => trivial
  | group after body before => exact ⟨Expression.compact_closesDirectly body, rfl⟩

theorem Expression.compact_closesDirectly (expression : Expression α) :
    expression.compact.ClosesDirectly := by
  cases expression with
  | single operand => exact Operand.compact_closesDirectly operand
  | join left before op after right =>
    exact ⟨Expression.compact_closesDirectly left, Operand.compact_closesDirectly right⟩

end

mutual

theorem Operand.opensAtStart_of_shape {operand : Operand α} {other : Operand β}
    (same : operand.compact.shape = other.compact.shape) (opens : other.OpensAtStart) :
    operand.OpensAtStart := by
  cases operand with
  | atom content => trivial
  | group after body before =>
    cases other with
    | atom content => cases same
    | group after' body' before' =>
      have bodies : body.compact.shape = body'.compact.shape := by
        injection same
      exact Expression.opensAtStart_of_shape bodies opens

theorem Expression.opensAtStart_of_shape {expression : Expression α} {other : Expression β}
    (same : expression.compact.shape = other.compact.shape) (opens : other.OpensAtStart) :
    expression.OpensAtStart := by
  cases expression with
  | single operand =>
    cases other with
    | single operand' =>
      have operands : operand.compact.shape = operand'.compact.shape := by
        injection same
      exact Operand.opensAtStart_of_shape operands opens
    | join _ _ _ _ _ => cases same
  | join left before op after right =>
    cases other with
    | single _ => cases same
    | join left' before' op' after' right' =>
      have parts : left.compact.shape = left'.compact.shape ∧
          right.compact.shape = right'.compact.shape := by
        injection same with lefts _ _ _ rights
        exact ⟨lefts, rights⟩
      rcases opens with ⟨opensLeft, content, atomRight⟩
      refine ⟨Expression.opensAtStart_of_shape parts.1 opensLeft, ?_⟩
      subst atomRight
      cases right with
      | atom own => exact ⟨own, rfl⟩
      | group _ _ _ => cases parts.2

end

end Ecclesia
