import Ecclesia.Library.FlatExpression
import Mathlib.Data.List.Infix

namespace Ecclesia

open List

/-!
# Expressions as sequences of tokens

The tokens of a flat expression are parentheses, connectives and atoms.  Whether a sequence of
tokens is an expression can be told from what stands before each token: whether an operand is
missing there, and how many groups are open.
-/

variable {α : Type}

def Throughout (Legal : List α -> α -> Prop) (items : List α) : Prop :=
  ∀ before item after, items = before ++ item :: after -> Legal before item

namespace Throughout

variable {Legal : List α -> α -> Prop} {items : List α}

lemma nil : Throughout Legal [] := by
  intro before item after empty
  exact absurd empty.symm (append_ne_nil_of_right_ne_nil before (cons_ne_nil item after))

lemma concat_iff {item : α} :
    Throughout Legal (items ++ [item]) ↔ Throughout Legal items ∧ Legal items item := by
  constructor
  · intro all
    refine ⟨?_, all items item [] rfl⟩
    intro before other after split
    apply all before other (after ++ [item])
    rw [split, append_assoc, cons_append]
  · rintro ⟨all, last⟩ before other after split
    rcases eq_nil_or_concat after with empty | ⟨later, final, isConcat⟩
    · subst empty
      have parts := append_inj' split rfl
      have sameItem : item = other := (cons.inj parts.2).1
      rw [<- parts.1, <- sameItem]
      exact last
    · subst isConcat
      apply all before other later
      have regrouped : items ++ [item] = (before ++ other :: later) ++ [final] := by
        rw [split]
        simp
      exact (append_inj' regrouped rfl).1

lemma left {more : List α} (all : Throughout Legal (items ++ more)) : Throughout Legal items := by
  intro before item after split
  apply all before item (after ++ more)
  rw [split, append_assoc]
  rfl

end Throughout

inductive Token (α : Type) where
  | opening
  | closing
  | operator (op : Connective)
  | atom (content : α)

mutual

def Operand.tokens : Operand α -> List (Token α)
  | .atom content => [.atom content]
  | .group _ body _ => .opening :: (body.tokens ++ [.closing])

def Expression.tokens : Expression α -> List (Token α)
  | .single operand => operand.tokens
  | .join left _ op _ right => left.tokens ++ .operator op :: right.tokens

end

/-- Operands joined by connectives, where an operand is an atom or a sentence in parentheses. -/
def Sentence (tokens : List (Token α)) : Prop :=
  ∃ expression : Expression α, expression.tokens = tokens

namespace Token

def isOpening : Token α -> Bool
  | .opening => true
  | _ => false

def isClosing : Token α -> Bool
  | .closing => true
  | _ => false

def awaits (awaiting : Bool) : Token α -> Bool
  | .opening => true
  | .closing => awaiting
  | .operator _ => true
  | .atom _ => false

end Token

variable {tokens : List (Token α)}

/-- Whether an operand is missing after some tokens. -/
def waiting (tokens : List (Token α)) : Bool :=
  tokens.foldl Token.awaits true

def openings (tokens : List (Token α)) : Nat :=
  tokens.countP Token.isOpening

def closings (tokens : List (Token α)) : Nat :=
  tokens.countP Token.isClosing

@[simp] lemma waiting_concat (token : Token α) :
    waiting (tokens ++ [token]) = token.awaits (waiting tokens) := by
  unfold waiting
  rw [foldl_append]
  rfl

@[simp] lemma openings_append (more : List (Token α)) :
    openings (tokens ++ more) = openings tokens + openings more :=
  countP_append

@[simp] lemma closings_append (more : List (Token α)) :
    closings (tokens ++ more) = closings tokens + closings more :=
  countP_append

/-- An atom stands where an operand is missing, and a connective where none is. -/
def Alternates (before : List (Token α)) : Token α -> Prop
  | .atom _ => waiting before = true
  | .operator _ => waiting before = false
  | _ => True

/-- A group begins where an operand is missing.  It ends where none is, if it has begun. -/
def Groups (before : List (Token α)) : Token α -> Prop
  | .opening => waiting before = true
  | .closing => waiting before = false ∧ closings before < openings before
  | _ => True

/-- Every token is where it may be. -/
structure Proper (tokens : List (Token α)) : Prop where
  alternates : Throughout Alternates tokens
  groups : Throughout Groups tokens

lemma Proper.nil : Proper ([] : List (Token α)) := ⟨.nil, .nil⟩

lemma Proper.concat_iff {token : Token α} :
    Proper (tokens ++ [token]) ↔ Proper tokens ∧ Alternates tokens token ∧ Groups tokens token := by
  constructor
  · intro proper
    rcases Throughout.concat_iff.mp proper.alternates with ⟨alternates, alternatesLast⟩
    rcases Throughout.concat_iff.mp proper.groups with ⟨groups, groupsLast⟩
    exact ⟨⟨alternates, groups⟩, alternatesLast, groupsLast⟩
  · rintro ⟨proper, alternatesLast, groupsLast⟩
    exact ⟨Throughout.concat_iff.mpr ⟨proper.alternates, alternatesLast⟩,
      Throughout.concat_iff.mpr ⟨proper.groups, groupsLast⟩⟩

mutual

theorem Operand.balanced (operand : Operand α) :
    openings operand.tokens = closings operand.tokens := by
  cases operand with
  | atom content => rfl
  | group after body before =>
    have inside := Expression.balanced body
    have split : (Operand.group after body before).tokens =
        [.opening] ++ body.tokens ++ [.closing] := rfl
    rw [split]
    simp only [openings_append, closings_append, inside]
    change 1 + closings body.tokens + 0 = 0 + closings body.tokens + 1
    omega

/-- As many groups end as begin. -/
theorem Expression.balanced (expression : Expression α) :
    openings expression.tokens = closings expression.tokens := by
  cases expression with
  | single operand => exact Operand.balanced operand
  | join left before op after right =>
    have first := Expression.balanced left
    have second := Operand.balanced right
    have split : (Expression.join left before op after right).tokens =
        left.tokens ++ ([.operator op] ++ right.tokens) := rfl
    rw [split]
    simp only [openings_append, closings_append, first, second]
    rfl

end

/-- Tokens after which a group may end, and everything before them was proper. -/
structure Finished (tokens : List (Token α)) : Prop where
  proper : Proper tokens
  complete : waiting tokens = false

mutual

theorem Operand.finished (operand : Operand α) {before : List (Token α)} (proper : Proper before)
    (missing : waiting before = true) (balance : closings before <= openings before) :
    Finished (before ++ operand.tokens) := by
  cases operand with
  | atom content =>
    constructor
    · exact Proper.concat_iff.mpr ⟨proper, missing, trivial⟩
    · exact waiting_concat (.atom content)
  | group after body before' =>
    have opened : Proper (before ++ [.opening]) := Proper.concat_iff.mpr ⟨proper, trivial, missing⟩
    have openedBalance : closings (before ++ [.opening]) <= openings (before ++ [.opening]) := by
      simp only [closings_append, openings_append]
      exact Nat.add_le_add balance (Nat.zero_le 1)
    have inside := Expression.finished body opened (waiting_concat .opening) openedBalance
    have regrouped : before ++ (Operand.group after body before').tokens =
        (before ++ [.opening] ++ body.tokens) ++ [.closing] := by
      simp [Operand.tokens]
    have deeper : closings (before ++ [.opening] ++ body.tokens) <
        openings (before ++ [.opening] ++ body.tokens) := by
      have even := Expression.balanced body
      have one : openings ([.opening] : List (Token α)) = 1 := rfl
      have zero : closings ([.opening] : List (Token α)) = 0 := rfl
      simp only [closings_append, openings_append]
      omega
    rw [regrouped]
    constructor
    · exact Proper.concat_iff.mpr ⟨inside.proper, trivial, inside.complete, deeper⟩
    · rw [waiting_concat]
      exact inside.complete

theorem Expression.finished (expression : Expression α) {before : List (Token α)}
    (proper : Proper before) (missing : waiting before = true)
    (balance : closings before <= openings before) : Finished (before ++ expression.tokens) := by
  cases expression with
  | single operand => exact Operand.finished operand proper missing balance
  | join left before' op after right =>
    have first := Expression.finished left proper missing balance
    have joined : Proper (before ++ left.tokens ++ [.operator op]) :=
      Proper.concat_iff.mpr ⟨first.proper, first.complete, trivial⟩
    have joinedBalance : closings (before ++ left.tokens ++ [.operator op]) <=
        openings (before ++ left.tokens ++ [.operator op]) := by
      have even := Expression.balanced left
      have zero : closings ([.operator op] : List (Token α)) = 0 := rfl
      simp only [closings_append, openings_append]
      omega
    have second := Operand.finished right joined (waiting_concat (.operator op)) joinedBalance
    have regrouped : before ++ (Expression.join left before' op after right).tokens =
        before ++ left.tokens ++ [.operator op] ++ right.tokens := by
      simp [Expression.tokens]
    rw [regrouped]
    exact second

end

/-- What may stand before an operand in its group: nothing, or an expression and a
connective. -/
inductive Fronted : List (Token α) -> Prop where
  | nothing : Fronted []
  | joined (left : Expression α) (op : Connective) : Fronted (left.tokens ++ [.operator op])

/-- The groups that are open, each with what stands before it in the group around it. -/
inductive OpenGroups : Nat -> List (Token α) -> Prop where
  | none : OpenGroups 0 []
  | deeper {depth : Nat} {outer front : List (Token α)} :
      OpenGroups depth outer -> Fronted front ->
        OpenGroups (depth + 1) (outer ++ front ++ [.opening])

lemma Fronted.operand {front : List (Token α)} (fronted : Fronted front)
    (operand : Operand α) : Sentence (front ++ operand.tokens) := by
  cases fronted with
  | nothing => exact ⟨.single operand, rfl⟩
  | joined left op =>
    refine ⟨.join left 0 op 0 operand, ?_⟩
    rw [append_assoc]
    rfl

/-- The last group that is open holds a sentence, or what may stand before an operand. -/
def Inside (awaiting : Bool) (tokens : List (Token α)) : Prop :=
  if awaiting then Fronted tokens else Sentence tokens

/-- By induction from the left: proper tokens are open groups and what is inside the last. -/
lemma Proper.read (proper : Proper tokens) :
    ∃ depth outer inner, OpenGroups depth outer ∧ tokens = outer ++ inner ∧
      Inside (waiting tokens) inner ∧ openings tokens = depth + closings tokens := by
  induction tokens using reverseRecOn with
  | nil => exact ⟨0, [], [], .none, rfl, .nothing, rfl⟩
  | append_singleton before token ih =>
    rcases Proper.concat_iff.mp proper with ⟨properBefore, alternates, groups⟩
    rcases ih properBefore with ⟨depth, outer, inner, open_, split, inside, count⟩
    rw [openings_append, closings_append, waiting_concat]
    cases token with
    | opening =>
      rw [show waiting before = true from groups] at inside
      refine ⟨depth + 1, before ++ [.opening], [], ?_, (append_nil _).symm, .nothing, ?_⟩
      · rw [split]
        exact .deeper open_ inside
      · rw [count]
        exact Nat.add_right_comm depth (closings before) 1
    | closing =>
      rcases groups with ⟨complete, begun⟩
      rw [complete] at inside
      rcases inside with ⟨body, isBody⟩
      cases open_ with
      | none =>
        rw [count, Nat.zero_add] at begun
        exact absurd begun (Nat.lt_irrefl _)
      | @deeper depth outer front open_ fronted =>
        refine ⟨depth, outer, front ++ (Operand.group 0 body 0).tokens, open_, ?_, ?_, ?_⟩
        · rw [split, <- isBody]
          simp [Operand.tokens]
        · rw [complete]
          exact fronted.operand (.group 0 body 0)
        · rw [count]
          exact Nat.add_right_comm depth 1 (closings before)
    | operator op =>
      rw [show waiting before = false from alternates] at inside
      rcases inside with ⟨left, isLeft⟩
      refine ⟨depth, outer, inner ++ [.operator op], open_, ?_, ?_, count⟩
      · rw [split, append_assoc]
      · rw [<- isLeft]
        exact .joined left op
    | atom content =>
      rw [show waiting before = true from alternates] at inside
      refine ⟨depth, outer, inner ++ [.atom content], open_, ?_, ?_, count⟩
      · rw [split, append_assoc]
      · exact Fronted.operand inside (.atom content)

/-- A sequence of tokens is a sentence if every token may be where it is, no operand is missing and
all groups have ended. -/
lemma sentence_iff : Sentence tokens ↔
    Proper tokens ∧ waiting tokens = false ∧ openings tokens = closings tokens := by
  constructor
  · rintro ⟨expression, isExpression⟩
    have finished := expression.finished Proper.nil rfl (le_refl _)
    rw [isExpression] at finished
    refine ⟨finished.proper, finished.complete, ?_⟩
    rw [<- isExpression]
    exact expression.balanced
  · rintro ⟨proper, complete, even⟩
    rcases proper.read with ⟨depth, outer, inner, open_, split, inside, count⟩
    have closed : depth = 0 := by omega
    subst closed
    cases open_
    rw [complete] at inside
    rw [split]
    exact inside

end Ecclesia
