import Ecclesia.Library.FlatExpression
import Ecclesia.Predicates.Comparison

namespace Ecclesia.Predicates

open Absl

/-!
# Evaluation of a whole predicate

`ApplyPredicateRule` reads a predicate in two passes.  The first one cuts the
text at blanks that are neither escaped nor quoted.  The second one runs over
the pieces with one running boolean, one pending connective and a stack of
saved pairs, one for every parenthesis that is open.
-/

structure PredicateOptions where
  predicate : Text
  nodeIndex : Int
  nodeSetSize : Nat

/-- The scan position of the splitter, which may be behind a backslash or inside quotes. -/
structure SplitState where
  expressions : List Text
  current : Text
  escaped : Bool
  inQuotes : Bool

namespace SplitState

def start : SplitState := ⟨[], [], false, false⟩

/-- Finish the current expression.  An empty one is dropped. -/
def flush (state : SplitState) : List Text :=
  if state.current.isEmpty then state.expressions else state.expressions ++ [state.current]

/-- One turn of the splitter. A backslash takes the next character along, if there is one. -/
def step (state : SplitState) (c : Char) : SplitState :=
  if state.escaped then { state with current := state.current ++ [c], escaped := false }
  else if c = '\\' then { state with current := state.current ++ [c], escaped := true }
  else
    let inQuotes := if c = '\'' then !state.inQuotes else state.inQuotes
    if !inQuotes && c == ' ' then
      { expressions := state.flush, current := [], escaped := false, inQuotes := inQuotes }
    else { state with current := state.current ++ [c], inQuotes := inQuotes }

def run (state : SplitState) (t : Text) : SplitState :=
  t.foldl step state

end SplitState

def splitExpressions (predicate : Text) : List Text :=
  (SplitState.start.run predicate).flush

def selectLastIndex : Text := text "last()"

def selectAll : Text := text "*"

/-- The conversion of a signed index to `size_t`. -/
def toSizeT (value : Int) : Nat :=
  (value % 2 ^ 64).toNat

/-- The value of an expression that is no logical operator. The index tests come first. -/
def singlePredicateResult (lib : NumericLibrary) (jsonObject : Json)
    (options : PredicateOptions) (expr : Text) : Evaluation Bool :=
  if (expr = selectLastIndex ∧ toSizeT options.nodeIndex = toSizeT (options.nodeSetSize - 1)) ∨
      simpleAtoi64 expr = some (toSizeT options.nodeIndex) ∨ expr = selectAll then
    .ok true
  else if relationsOperators.any fun op => strContains expr op then
    predicateFilterByNodeComparison lib jsonObject expr
  else match expr with
    | '!' :: nodeName => .ok (!predicateFilterByNodeName jsonObject nodeName)
    | _ => .ok (predicateFilterByNodeName jsonObject expr)

/-- The variables of the evaluation loop. An empty connective is `none`. -/
structure EvalState where
  isFilterSuccess : Bool
  logicalOperation : Option Connective
  stack : List (Bool × Connective)
  parenDepth : Int

namespace EvalState

def start : EvalState := ⟨true, some .and, [], 0⟩

/-- The state so far is saved for each open parenthesis, and the evaluation starts afresh. -/
def openParens (state : EvalState) (count : Nat) : EvalState :=
  if count = 0 then state
  else
    { isFilterSuccess := true
      logicalOperation := some .and
      stack := List.replicate count
        (state.isFilterSuccess, state.logicalOperation.getD .and) ++ state.stack
      parenDepth := state.parenDepth + count }

/-- Apply one saved pair for every closed parenthesis, if the stack holds enough of them. -/
def popSaved (state : EvalState) : Nat -> Option EvalState
  | 0 => some state
  | count + 1 =>
    match state.stack with
    | [] => none
    | (savedState, savedOp) :: rest =>
      popSaved { state with
        isFilterSuccess := savedOp.combine state.isFilterSuccess savedState
        stack := rest } count

end EvalState

/-- Strip and count the parentheses at the end of a reversed expression, up to `last()`. -/
def stripCloseParens : Text -> Nat × Text
  | ')' :: rest =>
    if ')' :: rest = selectLastIndex.reverse then (0, ')' :: rest)
    else
      let (count, expr) := stripCloseParens rest
      (count + 1, expr)
  | expr => (0, expr)

def logicalOperator? (expr : Text) : Option Connective :=
  if expr = text "and" then some .and
  else if expr = text "or" then some .or
  else none

def invalidPredicate {α : Type} (predicate : Text) : Evaluation α :=
  .invalidArgument (text "Invalid predicate: " ++ predicate)

def mismatchedParenthesis {α : Type} (predicate : Text) : Evaluation α :=
  .invalidArgument (text "Invalid predicate with mismatched parenthesis: " ++ predicate)

section

variable (lib : NumericLibrary) (jsonObject : Json) (options : PredicateOptions)

/-- Evaluate an expression that is no connective, and apply the pairs it closes. -/
def applyExpression (state : EvalState) (expr : Text) (savedStateCount : Nat) :
    Evaluation EvalState :=
  match state.logicalOperation with
  | none => invalidPredicate options.predicate
  | some op => do
      let result <- singlePredicateResult lib jsonObject options expr
      let combined : EvalState :=
        { state with
          isFilterSuccess := op.combine state.isFilterSuccess result
          logicalOperation := none }
      match combined.popSaved savedStateCount with
      | some next => .ok next
      | none => mismatchedParenthesis options.predicate

/-- One turn of the evaluation loop. -/
def processExpression (state : EvalState) (expr : Text) : Evaluation EvalState :=
  let opened := state.openParens (expr.takeWhile (· == '(')).length
  let (savedStateCount, reversed) := stripCloseParens (expr.dropWhile (· == '(')).reverse
  let inner := reversed.reverse
  let closed := { opened with parenDepth := opened.parenDepth - savedStateCount }
  -- A piece that consists of parentheses ends here, before any saved pair is applied.
  if inner.isEmpty then .ok closed
  else match logicalOperator? inner with
    | some op =>
      match closed.logicalOperation with
      | some _ => invalidPredicate options.predicate
      | none => .ok { closed with logicalOperation := some op }
    | none => applyExpression lib jsonObject options closed inner savedStateCount

def processExpressions (state : EvalState) (expressions : List Text) : Evaluation EvalState :=
  expressions.foldlM (processExpression lib jsonObject options) state

def applyPredicateRule : Evaluation Bool :=
  if options.predicate.isEmpty then .invalidArgument (text "Empty predicate")
  else do
    let final <- processExpressions lib jsonObject options .start
      (splitExpressions (stripAsciiWhitespace options.predicate))
    if final.parenDepth ≠ 0 then mismatchedParenthesis options.predicate
    else return final.isFilterSuccess

end

/-- The evaluation fails with no other status than an internal error or an invalid
argument. -/
def OwnErrors {α : Type} (evaluation : Evaluation α) : Prop :=
  ∀ status, evaluation = .error (.status status) ->
    status.code = .internal ∨ status.code = .invalidArgument

namespace OwnErrors

variable {α : Type}

lemma ok (value : α) : OwnErrors (.ok value : Evaluation α) := nofun

lemma exception (what : Text) : OwnErrors (.error (.exception what) : Evaluation α) := nofun

lemma internal (message : Text) : OwnErrors (.internal message : Evaluation α) := by
  intro status fails
  cases fails
  exact .inl rfl

lemma invalidArgument (message : Text) : OwnErrors (.invalidArgument message : Evaluation α) := by
  intro status fails
  cases fails
  exact .inr rfl

lemma bind {β : Type} {first : Evaluation α} {next : α -> Evaluation β} (own : OwnErrors first)
    (ownNext : ∀ value, OwnErrors (next value)) : OwnErrors (first >>= next) := by
  cases first with
  | ok value => exact ownNext value
  | error failure =>
    intro status fails
    cases fails
    exact own status rfl

lemma foldlM {β : Type} {step : β -> α -> Evaluation β}
    (own : ∀ state item, OwnErrors (step state item)) (items : List α) (state : β) :
    OwnErrors (items.foldlM step state) := by
  induction items generalizing state with
  | nil => exact ok state
  | cons item rest ih =>
    exact bind (own state item) fun next => ih next

end OwnErrors

variable (lib : NumericLibrary)

lemma fuzzyLoop_ownErrors (wholeLhs wholeRhs : Text) (fuel : Nat) (stringMode : Bool)
    (lhs rhs : Text) : OwnErrors (fuzzyLoop lib wholeLhs wholeRhs fuel stringMode lhs rhs) := by
  fun_induction fuzzyLoop lib wholeLhs wholeRhs fuel stringMode lhs rhs with
  | case4 => exact .internal _
  | case5 _ _ _ _ _ _ ih => exact ih
  | case9 _ _ _ _ _ _ _ _ _ ih => exact ih
  | case10 => exact .internal _
  | case11 => exact .internal _
  | case13 _ _ _ _ _ _ _ _ _ _ _ _ _ ih => exact ih
  | _ => exact .ok _

lemma applyNumberComparisonFilter_ownErrors (op : Text) (obj : Json) (rhs : lib.Double) :
    OwnErrors (applyNumberComparisonFilter lib op obj rhs) := by
  unfold applyNumberComparisonFilter
  split
  · exact .ok _
  · exact .ok _
  · exact .ok _
  · refine .bind ?_ fun stored => ?_
    · unfold Json.getString
      split
      · exact .ok _
      · exact .exception _
    · split
      · exact .ok _
      · exact .bind (.invalidArgument _) fun number => .ok _

lemma applyDateTimeComparisonFilter_ownErrors (op lhsTime testValue : Text) :
    OwnErrors (applyDateTimeComparisonFilter lib op lhsTime testValue) := by
  unfold applyDateTimeComparisonFilter
  split
  · exact .invalidArgument _
  · split
    · exact .internal _
    · exact .ok _

lemma predicateFilterByNodeComparison_ownErrors (jsonObject : Json) (predicate : Text) :
    OwnErrors (predicateFilterByNodeComparison lib jsonObject predicate) := by
  unfold predicateFilterByNodeComparison
  split
  · exact .invalidArgument _
  · split
    · exact .exception _
    · exact .ok _
    · split
      · split
        · exact applyDateTimeComparisonFilter_ownErrors lib _ _ _
        · exact .ok _
      · split
        · split
          · exact .bind (fuzzyLoop_ownErrors lib _ _ _ _ _ _) fun comparison => .ok _
          · exact .ok _
        · split
          · exact applyNumberComparisonFilter_ownErrors lib _ _ _
          · split_ifs
            · exact .ok _
            · exact .ok _
            · exact .ok _
            · exact .ok _

variable (jsonObject : Json) (options : PredicateOptions)

lemma singlePredicateResult_ownErrors (expr : Text) :
    OwnErrors (singlePredicateResult lib jsonObject options expr) := by
  unfold singlePredicateResult
  split_ifs
  · exact .ok _
  · exact predicateFilterByNodeComparison_ownErrors lib _ _
  · split
    · exact .ok _
    · exact .ok _

lemma processExpression_ownErrors (state : EvalState) (expr : Text) :
    OwnErrors (processExpression lib jsonObject options state expr) := by
  unfold processExpression
  simp only
  split_ifs
  · exact .ok _
  · split
    · split
      · exact .invalidArgument _
      · exact .ok _
    · unfold applyExpression
      split
      · exact .invalidArgument _
      · refine .bind (singlePredicateResult_ownErrors lib jsonObject options _)
          fun result => ?_
        simp only
        split
        · exact .ok _
        · exact .invalidArgument _

/-- A predicate never fails as if something were not found. -/
lemma applyPredicateRule_ownErrors : OwnErrors (applyPredicateRule lib jsonObject options) := by
  unfold applyPredicateRule
  split_ifs
  · exact .invalidArgument _
  · refine .bind (.foldlM
      (processExpression_ownErrors lib jsonObject options) _ _) fun final => ?_
    split_ifs
    · exact .invalidArgument _
    · exact .ok _

end Ecclesia.Predicates
