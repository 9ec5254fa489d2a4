import Ecclesia.Absl.Replace
import Ecclesia.Predicates.Parsing
import Ecclesia.Query.Proto

namespace Ecclesia.Predicates

open Absl List Bool

/-!
# Variables in predicates

`SubstituteVariables` puts the values of the query variables into a predicate, one variable
after the other.  A condition whose variable has no value is taken out afterwards.
-/

def kPredicateSelectAll : Text := text "*"

/-- `std::string::find`: the position of the first occurrence. -/
def findText (part : Text) : Text -> Option Nat
  | [] => if part.isEmpty then some 0 else none
  | c :: rest =>
    if startsWith (c :: rest) part then some 0 else (findText part rest).map (· + 1)

/-- The part of a condition in front of its variable, from the last blank or the parentheses on. -/
def propertyWithOp (before : Text) : Text :=
  if before.contains ' ' then (before.reverse.takeWhile (· != ' ')).reverse
  else before.dropWhile (· == '(')

def replaceMultiValueVariables (newPredicate variableName : Text) (varPos : Nat)
    (varValues : List Text) : Text :=
  let property := propertyWithOp (newPredicate.take varPos)
  let newExpression :=
    text "(" ++ strJoin (varValues.map fun value => property ++ value) (text " or ") ++ text ")"
  strReplaceAll newPredicate [(property ++ variableName, newExpression)]

/-- One turn of the loop over the variables. -/
def substituteVariable (newPredicate : Text) (value : Text × List Text) : Text :=
  if value.1.isEmpty then newPredicate
  else
    let variableName := text "$" ++ value.1
    match findText variableName newPredicate with
    | none => newPredicate
    | some varPos =>
      match value.2 with
      | [] => newPredicate
      | [varValue] => strReplaceAll newPredicate [(variableName, varValue)]
      | varValues => replaceMultiValueVariables newPredicate variableName varPos varValues

section

variable {t variableName : Text}

lemma substituteVariable_absent (varValues : List Text)
    (notFound : findText ('$' :: variableName) t = none) :
    substituteVariable t (variableName, varValues) = t := by
  unfold substituteVariable
  split
  · rfl
  · simp only [show findText (text "$" ++ variableName) t = none from notFound]

variable (named : variableName ≠ []) {varPos : Nat}
  (found : findText ('$' :: variableName) t = some varPos)

include named found

lemma substituteVariable_single (varValue : Text) :
    substituteVariable t (variableName, [varValue]) =
      strReplaceAll t [('$' :: variableName, varValue)] := by
  rw [substituteVariable, if_neg (by rwa [List.isEmpty_iff])]
  simp only [show findText (text "$" ++ variableName) t = some varPos from found]
  rfl

lemma substituteVariable_multi (first second : Text) (others : List Text) :
    substituteVariable t (variableName, first :: second :: others) =
      replaceMultiValueVariables t ('$' :: variableName) varPos (first :: second :: others) := by
  rw [substituteVariable, if_neg (by rwa [List.isEmpty_iff])]
  simp only [show findText (text "$" ++ variableName) t = some varPos from found]
  rfl

end

mutual

/-- What is left of a child, if it is kept. -/
def keepChild : PredicateObject -> Evaluation (Option PredicateObject)
  | .mk relexp logicalOperators childPredicates =>
    if !relexp.relOperator.isEmpty then
      if strContains relexp.rhs (text "$") then .ok none
      else .ok (some (.mk relexp logicalOperators childPredicates))
    else if !relexp.propertyName.isEmpty then
      .ok (some (.mk relexp logicalOperators childPredicates))
    else do
      let (children, operators) <- keepChildren logicalOperators true 0 childPredicates
      return if children.isEmpty then none else some (.mk relexp operators children)

/-- The loop over the children, with an index for the logical operators that is checked. -/
def keepChildren (logicalOperators : List Text) (first : Bool) (logicalOperatorsIndex : Nat) :
    List PredicateObject -> Evaluation (List PredicateObject × List Text)
  | [] => .ok ([], [])
  | child :: rest => do
      match <- keepChild child with
      | none => keepChildren logicalOperators first (logicalOperatorsIndex + 1) rest
      | some kept =>
        if first then do
          let (children, operators) <-
            keepChildren logicalOperators false logicalOperatorsIndex rest
          return (kept :: children, operators)
        else
          match logicalOperators[logicalOperatorsIndex]? with
          | none => .error (.exception (text "vector::_M_range_check"))
          | some op => do
              let (children, operators) <-
                keepChildren logicalOperators false (logicalOperatorsIndex + 1) rest
              return (kept :: children, op :: operators)

end

def removeUnpopulatedExpressions : PredicateObject -> Evaluation PredicateObject
  | .mk relexp logicalOperators childPredicates => do
      let (children, operators) <- keepChildren logicalOperators true 0 childPredicates
      return .mk relexp operators children

def invalidateUnpopulatedVariables (predicate : Text) : Evaluation Text :=
  match createPredicateObject predicate with
  | .error status => .error (.status status)
  | .ok predicateObject =>
    if !predicateObject.relationalExpression.relOperator.isEmpty then .ok kPredicateSelectAll
    else (removeUnpopulatedExpressions predicateObject).map predicateObjectToString

def substituteVariables (predicate : Text) (queryVariables : QueryVariables) : Evaluation Text :=
  let newPredicate := queryVariables.foldl substituteVariable predicate
  if strContains newPredicate (text "$") then invalidateUnpopulatedVariables newPredicate
  else .ok newPredicate

lemma strContains_dollar (t : Text) : strContains t (text "$") = t.contains '$' := by
  induction t with
  | nil => rfl
  | cons c rest ih =>
    have step : strContains (c :: rest) (text "$") =
        (('$' == c) || strContains rest (text "$")) := by
      simp [strContains, text, List.isPrefixOf]
    rw [step, ih, contains_cons]

/-- Without a dollar sign nothing is left to remove. -/
lemma substituteVariables_eq {predicate newPredicate : Text} {queryVariables : QueryVariables}
    (ran : queryVariables.foldl substituteVariable predicate = newPredicate)
    (noDollar : '$' ∉ newPredicate) :
    substituteVariables predicate queryVariables = .ok newPredicate := by
  have populated : strContains newPredicate (text "$") = false := by
    rw [strContains_dollar]
    simpa using noDollar
  unfold substituteVariables
  simp only [ran, populated]
  rfl

lemma findText_ne_none {part t : Text} (inside : part <:+: t) : findText part t ≠ none := by
  induction t with
  | nil =>
    rw [infix_nil.mp inside]
    intro impossible
    cases impossible
  | cons c rest ih =>
    rw [findText]
    by_cases begins : part <+: c :: rest
    · rw [startsWith, if_pos (List.isPrefixOf_iff_prefix.mpr begins)]
      intro impossible
      cases impossible
    · have inRest := (infix_cons_iff.mp inside).resolve_left begins
      rw [startsWith, if_neg (mt List.isPrefixOf_iff_prefix.mp begins), ne_eq,
        Option.map_eq_none_iff]
      exact ih inRest

section

variable {mark : Char} {name before rest : Text}

lemma findText_unmarked {t : Text} (noMark : mark ∉ t) : findText (mark :: name) t = none := by
  induction t with
  | nil => rfl
  | cons c rest ih =>
    have differs : startsWith (c :: rest) (mark :: name) = false := by
      rw [startsWith, eq_false_iff, ne_eq, List.isPrefixOf_iff_prefix]
      exact fun begins => noMark (begins.mem (.head _))
    rw [findText, differs, ih fun member => noMark (mem_cons_of_mem c member)]
    rfl

lemma findText_marked (inBefore : mark ∉ before) :
    findText (mark :: name) (before ++ mark :: (name ++ rest)) = some before.length := by
  induction before with
  | nil =>
    have begins : startsWith (mark :: (name ++ rest)) (mark :: name) = true := by
      rw [startsWith, List.isPrefixOf_iff_prefix]
      exact prefix_append (mark :: name) rest
    rw [nil_append, findText, begins]
    rfl
  | cons c others ih =>
    have differs : startsWith (c :: (others ++ mark :: (name ++ rest))) (mark :: name) =
        false := by
      rw [startsWith, eq_false_iff, ne_eq, List.isPrefixOf_iff_prefix]
      intro begins
      have isMark : mark = c := (cons_prefix_cons.mp begins).1
      exact inBefore (isMark ▸ (.head _))
    rw [cons_append, findText, differs, ih fun member => inBefore (mem_cons_of_mem c member)]
    rfl

lemma findText_skip (inBefore : mark ∉ before) (differs : ¬ name <+: rest) :
    findText (mark :: name) (before ++ mark :: rest) =
      (findText (mark :: name) rest).map (before.length + 1 + ·) := by
  induction before with
  | nil =>
    have unlike : startsWith (mark :: rest) (mark :: name) = false := by
      rw [startsWith, eq_false_iff, ne_eq, List.isPrefixOf_iff_prefix]
      exact fun begins => differs (cons_prefix_cons.mp begins).2
    rw [nil_append, findText, unlike]
    change (findText (mark :: name) rest).map (· + 1) = _
    simp only [length_nil, Nat.add_comm]
  | cons c others ih =>
    have unlike : startsWith (c :: (others ++ mark :: rest)) (mark :: name) = false := by
      rw [startsWith, eq_false_iff, ne_eq, List.isPrefixOf_iff_prefix]
      intro begins
      have isMark : mark = c := (cons_prefix_cons.mp begins).1
      exact inBefore (isMark ▸ (.head _))
    rw [cons_append, findText, unlike, ih fun member => inBefore (mem_cons_of_mem c member)]
    change ((findText (mark :: name) rest).map _).map (· + 1) = _
    rw [Option.map_map]
    congr 1
    funext position
    change others.length + 1 + position + 1 = others.length + 1 + 1 + position
    omega

end

example : substituteVariables (text "A and B=$v") [(text "v", [text "1", text "2"])] =
    .ok (text "A and (B=1 or B=2)") := by
  rfl

end Ecclesia.Predicates
