import Ecclesia.Absl.Strings

namespace Ecclesia.Planner

open Absl

/-!
# The RedPath trie

A node of the trie stands for an expression of a RedPath and owns the
expressions that may follow it.  The program keeps the expressions of a node
in a hash set, whose order is unspecified, and links an expression to its node
by a pointer; here the expressions come in the order in which the set is
iterated, and an expression contains its node.
-/

/-- The node name of a location step: nothing, or a letter or sign and another character. -/
def isNodeName (isNameCharacter : Char -> Bool) : Text -> Bool
  | [] => true
  | [_] => false
  | first :: second :: rest =>
    (asciiIsAlpha first || first == '#' || first == '@') && (second :: rest).all isNameCharacter

/-- `RE2::FullMatch` of `NodeName[Predicate]` with `kLocationStepRegex`, of which there are two with
different characters for names. A name has no bracket, so the predicate is between the first bracket
and the last character. -/
def matchLocationStep (isNameCharacter : Char -> Bool) (step : Text) : Option (Text × Text) :=
  let nodeName := step.takeWhile (· != '[')
  if isNodeName isNameCharacter nodeName then
    match step.dropWhile (· != '[') with
    | [] => some (nodeName, [])
    | _ :: rest =>
      if rest.getLast? = some ']' && !rest.dropLast.contains '\n' then
        some (nodeName, rest.dropLast)
      else none
  else none

/-- `RedPathExpression::Type` -/
inductive ExpressionType where
  | nodeName
  | predicate
  | predicateTemplate
  | nodeNameJsonPointer
  | nodeNameUriPointer
deriving DecidableEq

mutual

/-- `RedPathTrieNode`: the id of the subquery that ends here, or nothing, and the children. -/
inductive RedPathTrieNode where
  | mk (subqueryId : Text) (childExpressions : List RedPathExpression)

inductive RedPathExpression where
  | mk (type : ExpressionType) (expression : Text) (trieNode : RedPathTrieNode)

end

namespace RedPathTrieNode

def subqueryId : RedPathTrieNode -> Text
  | .mk subqueryId _ => subqueryId

def childExpressions : RedPathTrieNode -> List RedPathExpression
  | .mk _ childExpressions => childExpressions

end RedPathTrieNode

namespace RedPathExpression

def type : RedPathExpression -> ExpressionType
  | .mk type _ _ => type

def expression : RedPathExpression -> Text
  | .mk _ expression _ => expression

def trieNode : RedPathExpression -> RedPathTrieNode
  | .mk _ _ trieNode => trieNode

end RedPathExpression

mutual

/-- A bound for the expressions that can follow one another below a node. -/
def RedPathTrieNode.rank : RedPathTrieNode -> Nat
  | .mk _ childExpressions => weights childExpressions + 1

/-- The bound for an expression and everything below its node. -/
def RedPathExpression.weight : RedPathExpression -> Nat
  | .mk _ _ trieNode => trieNode.rank + 1

def weights : List RedPathExpression -> Nat
  | [] => 0
  | expression :: rest => expression.weight + weights rest

end

lemma weight_le_weights {expression : RedPathExpression} {children : List RedPathExpression}
    (member : expression ∈ children) : expression.weight <= weights children := by
  induction children with
  | nil => exact nomatch member
  | cons child rest ih =>
    rcases List.mem_cons.mp member with rfl | member
    · exact Nat.le_add_right _ _
    · exact Nat.le_trans (ih member) (Nat.le_add_left _ _)

lemma RedPathTrieNode.weight_lt_rank {node : RedPathTrieNode} {expression : RedPathExpression}
    (member : expression ∈ node.childExpressions) : expression.weight < node.rank := by
  cases node with
  | mk subqueryId children =>
    exact Nat.lt_succ_of_le (weight_le_weights member)

lemma RedPathExpression.rank_lt_weight (expression : RedPathExpression) :
    expression.trieNode.rank < expression.weight := by
  cases expression with
  | mk type content node =>
    exact Nat.lt_succ_self _

end Ecclesia.Planner
