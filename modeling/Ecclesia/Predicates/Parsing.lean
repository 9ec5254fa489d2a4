import Ecclesia.Predicates.Filter

namespace Ecclesia.Predicates

open Absl

/-!
# Predicate objects and their texts

`CreatePredicateObject` takes a predicate apart into relational expressions, and
`PredicateObjectToString` puts it together again.  The regular expressions of the source have
at most one way to match, so a match is found by taking the parts of a text from the left.
-/

/-- `\s` -/
def isRelationSpace (c : Char) : Bool :=
  c == ' ' || c == '\t' || c == '\n' || c == '\r' || c.toNat == 12

/-- The characters of relational operators. -/
def isRelationSign (c : Char) : Bool :=
  c == '~' || c == '<' || c == '=' || c == '>' || c == '!'

def isLeftCharacter (c : Char) : Bool :=
  !isRelationSpace c && !isRelationSign c

def relationSigns : List Text :=
  [text "<=", text ">=", text "!=", text ">", text "<", text "=", text "~>", text "<~",
    text "~>=", text "<~="]

/-- `kRelationalExpressionRegex` with the parts that it captures. -/
def matchRelationalExpression (expression : Text) : Option RelationalExpression :=
  let lhs := expression.takeWhile isLeftCharacter
  let later := expression.dropWhile isLeftCharacter
  let relOperator := later.takeWhile isRelationSign
  let rhs := later.dropWhile isRelationSign
  if !lhs.isEmpty && relationSigns.contains relOperator && !rhs.isEmpty &&
      rhs.all fun c => !isRelationSign c then
    some ⟨lhs, relOperator, rhs, []⟩
  else none

def isUpperLetter (c : Char) : Bool :=
  'A' <= c && c <= 'Z'

def isPropertyCharacter (c : Char) : Bool :=
  asciiIsAlnum c || c == '.'

/-- `kPropertyExistenceRegex` after the exclamation mark. -/
def matchesPropertyName : Text -> Bool
  | [] => false
  | c :: rest => isUpperLetter c && rest.all isPropertyCharacter

/-- `kPropertyExistenceRegex` -/
def matchesPropertyExistence : Text -> Bool
  | '!' :: rest => matchesPropertyName rest
  | expression => matchesPropertyName expression

def encodeRelationalExpression (expression : Text) : StatusOr RelationalExpression :=
  if matchesPropertyExistence expression then .ok ⟨[], [], [], expression⟩
  else
    match matchRelationalExpression expression with
    | some relationalExpression => .ok relationalExpression
    | none => .error (.invalidArgument (text "Invalid relational expression: " ++ expression))

/-- `RelationalExpressionToString` of `predicate_object.cc` -/
def relexpToString (relexp : RelationalExpression) : Text :=
  if relexp.propertyName.isEmpty then relexp.lhs ++ relexp.relOperator ++ relexp.rhs
  else relexp.propertyName

def isRelationalExpression (expression : Text) : Bool :=
  (matchRelationalExpression expression).isSome || matchesPropertyExistence expression

/-- The text up to the parenthesis that closes the outermost of some open ones. -/
def childPredicateAt : Nat -> Text -> Option Text
  | _, [] => none
  | depth, c :: rest =>
    if c = ')' then
      if depth = 1 then some [] else (childPredicateAt (depth - 1) rest).map (c :: ·)
    else (childPredicateAt (if c = '(' then depth + 1 else depth) rest).map (c :: ·)

/-- `GetChildPredicate`.  It is empty when the parenthesis is not closed. -/
def getChildPredicate (predicate : Text) : Text := (childPredicateAt 1 predicate).getD []

/-- `GetChildRelationalExpression`, after a character that may have been a backslash. -/
def childRelationalExpressionAt : Bool -> Text -> Text
  | _, [] => []
  | true, c :: rest => c :: childRelationalExpressionAt false rest
  | false, c :: rest =>
    if c = '\\' then c :: childRelationalExpressionAt true rest
    else if c = ' ' then []
    else c :: childRelationalExpressionAt false rest

def getChildRelationalExpression (predicate : Text) : Text :=
  childRelationalExpressionAt false predicate

def getLogicalOperator (predicatePart : Text) : StatusOr Text :=
  if startsWith predicatePart (text " and ") then .ok (text " and ")
  else if startsWith predicatePart (text " or ") then .ok (text " or ")
  else .error (.invalidArgument (text "Unknown logical operator"))

/-- An expression that is no combination of others. -/
def PredicateObject.leaf (relationalExpression : RelationalExpression) : PredicateObject :=
  .mk relationalExpression [] []

/-- A combination of children. -/
def PredicateObject.group (logicalOperators : List Text) (childPredicates : List PredicateObject) :
    PredicateObject :=
  .mk ⟨[], [], [], []⟩ logicalOperators childPredicates

/-- What a recursion without any fuel would return. -/
def outOfFuel {α : Type} : StatusOr α :=
  .error (.internal (text "out of fuel"))

mutual

/-- `CreatePredicateObject` with a bound on the calls and turns inside each other. -/
def createPredicateObjectWithin : Nat -> Text -> StatusOr PredicateObject
  | 0, _ => outOfFuel
  | fuel + 1, predicate =>
    if isRelationalExpression predicate then do
      let relexp <- encodeRelationalExpression predicate
      return .leaf relexp
    else do
      let (children, operators) <- createChildrenWithin fuel predicate
      return .group operators children

/-- The loop over what is left of a predicate. -/
def createChildrenWithin : Nat -> Text -> StatusOr (List PredicateObject × List Text)
  | _, [] => .ok ([], [])
  | 0, _ :: _ => outOfFuel
  | fuel + 1, c :: rest => do
      let (child, later) <-
        (if c = '(' then do
          let childExpression := getChildPredicate rest
          let child <- createPredicateObjectWithin fuel childExpression
          return (child, rest.drop (childExpression.length + 1))
        else do
          let childExpression := getChildRelationalExpression (c :: rest)
          let relexp <- encodeRelationalExpression childExpression
          return (.leaf relexp, (c :: rest).drop childExpression.length) :
          StatusOr (PredicateObject × Text))
      if later.isEmpty then return ([child], [])
      else do
        let logop <- getLogicalOperator later
        let (children, operators) <- createChildrenWithin fuel (later.drop logop.length)
        return (child :: children, logop :: operators)

end

def createPredicateObject (predicate : Text) : StatusOr PredicateObject :=
  createPredicateObjectWithin (2 * predicate.length + 2) predicate

mutual

/-- The text of a child.  One that contains a single relational expression needs no
parentheses. -/
def childToString : PredicateObject -> Text
  | .mk relationalExpression _ [] => relexpToString relationalExpression
  | .mk _ logicalOperators (first :: rest) =>
    if rest.isEmpty && first.childPredicates.isEmpty then
      relexpToString first.relationalExpression
    else text "(" ++ childrenToString (first :: rest) logicalOperators ++ text ")"

/-- The loop over the children, with the logical operators that are left. -/
def childrenToString : List PredicateObject -> List Text -> Text
  | [], _ => []
  | child :: rest, logicalOperators =>
    childToString child ++ logicalOperators.headD [] ++ childrenToString rest logicalOperators.tail

end

def predicateObjectToString : PredicateObject -> Text
  | .mk relationalExpression _ [] =>
    if relationalExpression.propertyName.isEmpty && relationalExpression.relOperator.isEmpty then
      text "*"
    else relexpToString relationalExpression
  | .mk _ logicalOperators (first :: rest) => childrenToString (first :: rest) logicalOperators

end Ecclesia.Predicates
