import Ecclesia.Predicates.Reading

namespace Ecclesia.Predicates

open Absl List

/-!
# Blanks next to parentheses

A blank behind an opening parenthesis never matters.  A blank before a closing
parenthesis does: the parenthesis becomes a piece of its own, and the pair
saved for its group stays on the stack.  The depth counter is kept apart from
the stack, so no mismatch is reported.

Predicates all of whose parentheses are opened at the very beginning are the
only ones that do not suffer: every pair saved for them is the neutral one.
For every other shape there are atoms for which a blank changes the result.
-/

section

variable (lib : NumericLibrary) (jsonObject : Json) (options : PredicateOptions)

/-- Every saved pair is the neutral one. -/
def Neutral (stack : List (Bool × Connective)) : Prop :=
  ∀ saved ∈ stack, saved = (true, .and)

/-- The state after an expression with neutral pairs, at least as many as open parentheses. -/
structure Leftover (depth : Int) (value : Bool) (final : EvalState) : Prop where
  success : final.isFilterSuccess = value
  applied : final.logicalOperation = none
  neutral : Neutral final.stack
  depth_eq : final.parenDepth = depth
  covered : final.parenDepth <= final.stack.length

variable {state : EvalState}

lemma Leftover.closeOne {depth : Int} {value : Bool} (leftover : Leftover (depth + 1) value state)
    (nonneg : 0 <= depth) :
    ∃ final, closeOne options state = .ok final ∧ Leftover depth value final := by
  rcases state with ⟨success, pending, stack, reached⟩
  rcases leftover with ⟨rfl, applied, neutral, rfl, covered⟩
  cases stack with
  | nil =>
    simp only [length_nil] at covered
    omega
  | cons saved rest =>
    have pair := neutral saved (.head _)
    subst pair
    refine ⟨⟨success, pending, rest, depth⟩, ?_, rfl, applied, ?_, rfl, ?_⟩
    · simp [Predicates.closeOne, EvalState.popSaved]
    · intro other member
      exact neutral other (.tail _ member)
    · simp only [length_cons] at covered
      simp only
      omega

lemma Leftover.lower {depth : Int} {value : Bool} (leftover : Leftover (depth + 1) value state) :
    Leftover depth value { state with parenDepth := state.parenDepth - (1 : Nat) } := by
  have lowered := leftover.depth_eq
  have covered := leftover.covered
  refine ⟨leftover.success, leftover.applied, leftover.neutral, ?_, ?_⟩
  · simp only
    omega
  · simp only
    omega

lemma readsAs_closePieces {reading : Evaluation Bool} {scanned : List Piece × Piece} {depth : Int}
    (before : Nat) (closable : scanned.2.Closable) (nonneg : 0 <= depth)
    (reads : ReadsAs reading (runPieces lib jsonObject options state scanned)
      (Leftover (depth + 1))) :
    ReadsAs reading (runPieces lib jsonObject options state (closePieces scanned before))
      (Leftover depth) := by
  rcases scanned with ⟨finished, current⟩
  cases before with
  | succ before =>
    have detached : runPieces lib jsonObject options state
        (closePieces (finished, current) (before + 1)) =
        runPieces lib jsonObject options state (finished, current) >>= fun next =>
          .ok { next with parenDepth := next.parenDepth - (1 : Nat) } := by
      rw [runPieces_eq]
      rfl
    rw [detached]
    apply reads.bind
    intro value next leftover
    exact ⟨_, rfl, leftover.lower⟩
  | zero =>
    cases current with
    | opens count => exact False.elim closable
    | operator op => exact False.elim closable
    | operand opened content closed =>
      rw [runPieces_close lib jsonObject options (finished, _) rfl]
      exact reads.bind fun value next leftover => leftover.closeOne options nonneg
    | closes count =>
      have joined : runPieces lib jsonObject options state
          (closePieces (finished, .closes count) 0) =
          runPieces lib jsonObject options state (finished, .closes count) >>= fun next =>
            .ok { next with parenDepth := next.parenDepth - (1 : Nat) } := by
        rw [runPieces_eq, runPieces_eq, bind_assoc]
        simp only [closePieces, if_true, Piece.close, processExpression_closes]
        congr 1
        funext next
        simp only [bind, Except.bind]
        congr 2
        omega
      rw [joined]
      apply reads.bind
      intro value next leftover
      exact ⟨_, rfl, leftover.lower⟩

mutual

theorem leftover_operand (pending : Nat) (operand : Operand Atom)
    (opens : operand.OpensAtStart) (stack : List (Bool × Connective)) (neutral : Neutral stack)
    (depth : Int) (nonneg : 0 <= depth) (covered : depth <= stack.length) :
    ReadsAs (operand.evaluate (atomResult lib jsonObject options))
      (runPieces lib jsonObject options ⟨true, some .and, stack, depth⟩
        (operandPieces pending operand)) (Leftover (depth + pending)) := by
  have neutralMore : ∀ count, Neutral (replicate count (true, .and) ++ stack) := by
    intro count saved member
    rcases mem_append.mp member with repeated | old
    · exact eq_of_mem_replicate repeated
    · exact neutral saved old
  cases operand with
  | atom content =>
    rw [runPieces_eq]
    have single := evaluateOperand_atom lib jsonObject options true .and stack depth pending content
    rw [<- processExpression_operand] at single
    apply ReadsAs.imp single
    rintro value final ⟨reached, rfl, same, _⟩
    simp only [Connective.and_combine_true_right] at same
    refine ⟨same, rfl, neutralMore pending, rfl, ?_⟩
    simp only [length_append, length_replicate]
    omega
  | group after body before =>
    have depths : depth + pending + 1 = depth + (pending + 1 : Nat) := by omega
    by_cases touching : after = 0
    · simp only [touching]
      refine readsAs_closePieces lib jsonObject options before
        (scanned_expression (pending + 1) body []).closable (by omega) ?_
      rw [depths]
      exact leftover_expression (pending + 1) body opens stack neutral depth nonneg covered
    · simp only [operandPieces, touching]
      refine readsAs_closePieces lib jsonObject options before
        (scanned_expression 0 body []).closable (by omega) ?_
      rw [runPieces_opens, depths]
      have inner := leftover_expression 0 body opens
        (replicate (pending + 1) (true, .and) ++ stack) (neutralMore (pending + 1))
        (depth + (pending + 1 : Nat)) (by omega) (by
          simp only [length_append, length_replicate]
          omega)
      rw [Int.natCast_zero, Int.add_zero] at inner
      exact inner

theorem leftover_expression (pending : Nat) (expression : Expression Atom)
    (opens : expression.OpensAtStart) (stack : List (Bool × Connective))
    (neutral : Neutral stack) (depth : Int) (nonneg : 0 <= depth)
    (covered : depth <= stack.length) :
    ReadsAs (expression.evaluate (atomResult lib jsonObject options))
      (runPieces lib jsonObject options ⟨true, some .and, stack, depth⟩
        (expressionPieces pending expression)) (Leftover (depth + pending)) := by
  cases expression with
  | single operand =>
    exact leftover_operand pending operand opens stack neutral depth nonneg covered
  | join left before op after right =>
    rcases opens with ⟨opensLeft, content, rfl⟩
    rw [runPieces_join]
    refine .join op (fun value state =>
        Leftover (depth + pending) value { state with logicalOperation := none } ∧
        state.logicalOperation = some op) ?_ ?_
    · refine (leftover_expression pending left opensLeft stack neutral depth nonneg
        covered).bind ?_
      intro value state leftover
      refine ⟨_, processExpression_operator lib jsonObject options op leftover.applied, ?_, rfl⟩
      exact ⟨leftover.success, rfl, leftover.neutral, leftover.depth_eq, leftover.covered⟩
    · rintro value ⟨success, stored, saved, reached⟩ ⟨leftover, storedEq⟩
      subst storedEq
      have single := evaluateOperand_atom lib jsonObject options success op saved reached 0 content
      rw [<- processExpression_operand] at single
      rw [runPieces_eq]
      apply ReadsAs.imp single
      rintro other final ⟨atEnd, rfl, _, exactly⟩
      have startValue : success = value := leftover.success
      refine ⟨?_, rfl, leftover.neutral, ?_, ?_⟩
      · simp only [exactly rfl, startValue]
      · simpa using leftover.depth_eq
      · simpa using leftover.covered

end

end

variable {expression : Expression Atom}

lemma applyPredicateRule_of_opensAtStart (lib : NumericLibrary) (jsonObject : Json)
    (opens : expression.OpensAtStart) (nodeIndex : Int) (nodeSetSize : Nat) :
    applyPredicateRule lib jsonObject (optionsFor expression nodeIndex nodeSetSize) =
      expression.evaluate (atomAt lib jsonObject nodeIndex nodeSetSize) := by
  apply applyPredicateRule_of_readsAs
  have reads := leftover_expression lib jsonObject (optionsFor expression nodeIndex nodeSetSize)
    0 expression opens [] (forall_mem_nil _) 0 (Int.le_refl 0) (Int.le_refl 0)
  exact reads.imp fun value final leftover => ⟨leftover.success, leftover.depth_eq⟩

mutual

/-- Every closing parenthesis is a piece of its own, and no opening one is. -/
def OperandDetached : Operand Atom -> Prop
  | .atom _ => True
  | .group after body before => after = 0 ∧ ExpressionDetached body ∧ before = 1

def ExpressionDetached : Expression Atom -> Prop
  | .single operand => OperandDetached operand
  | .join left _ _ _ right => ExpressionDetached left ∧ OperandDetached right

end

mutual

/-- What becomes of an operand when an opened parenthesis forgets everything before it. -/
def forgetfulOperand (truth : Atom -> Bool) : Operand Atom -> Connective -> Bool -> Bool
  | .atom content, op, success => op.combine success (truth content)
  | .group _ body _, _, _ => forgetful truth body .and true

def forgetful (truth : Atom -> Bool) : Expression Atom -> Connective -> Bool -> Bool
  | .single operand, op, success => forgetfulOperand truth operand op success
  | .join left _ second _ right, op, success =>
    forgetfulOperand truth right second (forgetful truth left op success)

end

section

variable (lib : NumericLibrary) (jsonObject : Json) (options : PredicateOptions)
  (truth : Atom -> Bool)

mutual

theorem detached_operand (pending : Nat) (operand : Operand Atom)
    (detached : OperandDetached operand)
    (evaluates : ∀ content ∈ operand.atoms,
      atomResult lib jsonObject options content = .ok (truth content))
    (success : Bool) (op : Connective) (stack : List (Bool × Connective)) (depth : Int) :
    ∃ rest, runPieces lib jsonObject options ⟨success, some op, stack, depth⟩
        (operandPieces pending operand) =
      .ok ⟨if pending = 0 then forgetfulOperand truth operand op success
        else forgetfulOperand truth operand .and true, none, rest, depth + pending⟩ := by
  cases operand with
  | atom content =>
    have evaluated : singlePredicateResult lib jsonObject options content.text =
        .ok (truth content) := evaluates content (mem_singleton_self content)
    refine ⟨replicate pending (success, op) ++ stack, ?_⟩
    rw [runPieces_eq]
    change processExpression lib jsonObject options _ (Piece.operand pending content 0).render = _
    rw [processExpression_operand]
    cases pending with
    | zero =>
      simp [evaluateOperand, applyExpression, EvalState.openParens, evaluated,
        EvalState.popSaved, bind, Except.bind, forgetfulOperand]
    | succ pending =>
      simp [evaluateOperand, applyExpression, EvalState.openParens, evaluated,
        EvalState.popSaved, bind, Except.bind, forgetfulOperand]
  | group after body before =>
    rcases detached with ⟨rfl, inner, rfl⟩
    rcases detached_expression (pending + 1) body inner evaluates success op stack depth with
      ⟨rest, ran⟩
    refine ⟨rest, ?_⟩
    have separate : runPieces lib jsonObject options ⟨success, some op, stack, depth⟩
        (operandPieces pending (.group 0 body 1)) =
        runPieces lib jsonObject options ⟨success, some op, stack, depth⟩
          (expressionPieces (pending + 1) body) >>= fun next =>
            .ok { next with parenDepth := next.parenDepth - (1 : Nat) } := by
      rw [runPieces_eq]
      rfl
    have depths : depth + ((pending + 1 : Nat) : Int) - (1 : Nat) = depth + pending := by omega
    rw [separate, ran]
    simp only [bind, Except.bind, Nat.succ_ne_zero, if_false, depths, forgetfulOperand, ite_self]

theorem detached_expression (pending : Nat) (expression : Expression Atom)
    (detached : ExpressionDetached expression)
    (evaluates : ∀ content ∈ expression.atoms,
      atomResult lib jsonObject options content = .ok (truth content))
    (success : Bool) (op : Connective) (stack : List (Bool × Connective)) (depth : Int) :
    ∃ rest, runPieces lib jsonObject options ⟨success, some op, stack, depth⟩
        (expressionPieces pending expression) =
      .ok ⟨if pending = 0 then forgetful truth expression op success
        else forgetful truth expression .and true, none, rest, depth + pending⟩ := by
  cases expression with
  | single operand =>
    exact detached_operand pending operand detached evaluates success op stack depth
  | join left before second after right =>
    rcases detached_expression pending left detached.1
      (fun content member => evaluates content (mem_append_left _ member))
      success op stack depth with ⟨middle, ranLeft⟩
    rcases detached_operand 0 right detached.2
      (fun content member => evaluates content (mem_append_right _ member))
      (if pending = 0 then forgetful truth left op success else forgetful truth left .and true)
      second middle (depth + pending) with ⟨rest, ranRight⟩
    refine ⟨rest, ?_⟩
    have stored : processExpression lib jsonObject options
        ⟨if pending = 0 then forgetful truth left op success
          else forgetful truth left .and true, none, middle, depth + pending⟩
        (Piece.operator second).render =
        .ok ⟨if pending = 0 then forgetful truth left op success
          else forgetful truth left .and true, some second, middle, depth + pending⟩ :=
      processExpression_operator lib jsonObject options second rfl
    rw [runPieces_join, ranLeft]
    simp only [bind, Except.bind]
    rw [stored]
    simp only [ranRight, forgetful]
    by_cases alone : pending = 0
    · simp [alone]
    · simp [alone]

end

end

lemma applyPredicateRule_of_detached {lib : NumericLibrary} {jsonObject : Json} {nodeIndex : Int}
    {nodeSetSize : Nat} {truth : Atom -> Bool} (detached : ExpressionDetached expression)
    (evaluates : ∀ content ∈ expression.atoms,
      atomAt lib jsonObject nodeIndex nodeSetSize content = .ok (truth content)) :
    applyPredicateRule lib jsonObject (optionsFor expression nodeIndex nodeSetSize) =
      .ok (forgetful truth expression .and true) := by
  rcases detached_expression lib jsonObject (optionsFor expression nodeIndex nodeSetSize) truth 0
    expression detached evaluates true .and [] 0 with ⟨rest, ran⟩
  rw [applyPredicateRule_render]
  change (runPieces lib jsonObject _ ⟨true, some .and, [], 0⟩ _ >>= _) = _
  rw [ran]
  rfl

/-- An atom with a chosen value at a resource without properties. -/
def constantAtom (value : Bool) : Atom :=
  if value then atomAll else atomX

/-- The value of the chosen atoms. -/
def constantTruth (content : Atom) : Bool :=
  decide (content.text = text "*")

lemma constantTruth_constantAtom (value : Bool) : constantTruth (constantAtom value) = value := by
  cases value <;> rfl

lemma atomAt_constantAtom (value : Bool) :
    atomAt integerLibrary .null 0 1 (constantAtom value) =
      .ok (constantTruth (constantAtom value)) := by
  cases value <;> rfl

/-- A filling of a shape by chosen atoms, with all closing parentheses
detached. -/
structure OperandFilling (shape : Operand Atom) where
  operand : Operand Atom
  same : operand.compact.shape = shape.compact.shape
  detached : OperandDetached operand
  chosen : ∀ content ∈ operand.atoms, ∃ value, content = constantAtom value

structure ExpressionFilling (shape : Expression Atom) where
  expression : Expression Atom
  same : expression.compact.shape = shape.compact.shape
  detached : ExpressionDetached expression
  chosen : ∀ content ∈ expression.atoms, ∃ value, content = constantAtom value

def OperandFilling.atom (content : Atom) (value : Bool) : OperandFilling (.atom content) where
  operand := .atom (constantAtom value)
  same := rfl
  detached := trivial
  chosen := fun _ member => ⟨value, List.mem_singleton.mp member⟩

def OperandFilling.group {body : Expression Atom} (filling : ExpressionFilling body)
    (after before : Nat) : OperandFilling (.group after body before) where
  operand := .group 0 filling.expression 1
  same := congrArg (Operand.group 0 · 0) filling.same
  detached := ⟨rfl, filling.detached, rfl⟩
  chosen := filling.chosen

def ExpressionFilling.single {operand : Operand Atom} (filling : OperandFilling operand) :
    ExpressionFilling (.single operand) where
  expression := .single filling.operand
  same := congrArg Expression.single filling.same
  detached := filling.detached
  chosen := filling.chosen

def ExpressionFilling.join {left : Expression Atom} {right : Operand Atom}
    (first : ExpressionFilling left) (second : OperandFilling right) (before : Nat)
    (op : Connective) (after : Nat) : ExpressionFilling (.join left before op after right) where
  expression := .join first.expression before op after second.operand
  same := congrArg₂ (Expression.join · before op after ·) first.same second.same
  detached := ⟨first.detached, second.detached⟩
  chosen := by
    intro content member
    rcases List.mem_append.mp member with early | late
    · exact first.chosen content early
    · exact second.chosen content late

mutual

theorem exists_constant_operand (shape : Operand Atom) (value : Bool) :
    ∃ filling : OperandFilling shape, filling.operand.value constantTruth = value ∧
      ∀ op, forgetfulOperand constantTruth filling.operand op value = value := by
  cases shape with
  | atom content =>
    refine ⟨.atom content value, constantTruth_constantAtom value, ?_⟩
    intro op
    change op.combine value (constantTruth (constantAtom value)) = value
    rw [constantTruth_constantAtom, Connective.combine_self]
  | group after body before =>
    rcases exists_constant_expression body value with ⟨filling, read, forgot⟩
    exact ⟨.group filling after before, read, fun _ => forgot⟩

theorem exists_constant_expression (shape : Expression Atom) (value : Bool) :
    ∃ filling : ExpressionFilling shape, filling.expression.value constantTruth = value ∧
      forgetful constantTruth filling.expression .and true = value := by
  cases shape with
  | single operand =>
    cases operand with
    | atom content =>
      refine ⟨.single (.atom content value), constantTruth_constantAtom value, ?_⟩
      change Connective.and.combine true (constantTruth (constantAtom value)) = value
      rw [Connective.and_combine_true, constantTruth_constantAtom]
    | group after body before =>
      rcases exists_constant_expression body value with ⟨filling, read, forgot⟩
      exact ⟨.single (.group filling after before), read, forgot⟩
  | join left before op after right =>
    rcases exists_constant_expression left value with ⟨first, readLeft, forgotLeft⟩
    rcases exists_constant_operand right value with ⟨second, readRight, forgotRight⟩
    refine ⟨first.join second before op after, ?_, ?_⟩
    · change op.combine (first.expression.value constantTruth)
        (second.operand.value constantTruth) = value
      rw [readLeft, readRight, Connective.combine_self]
    · change forgetfulOperand constantTruth second.operand op
        (forgetful constantTruth first.expression .and true) = value
      rw [forgotLeft]
      exact forgotRight op

end

/-- A shape with a group behind a connective can be filled so that forgetting what precedes the
group turns the result around. The recursion looks for the last group, and the operands before it
receive the value from which its connective cannot recover. -/
lemma exists_misread (shape : Expression Atom) (late : ¬ shape.OpensAtStart) :
    ∃ filling : ExpressionFilling shape,
      filling.expression.value constantTruth =
        !forgetful constantTruth filling.expression .and true := by
  cases shape with
  | single operand =>
    cases operand with
    | atom content => exact absurd trivial late
    | group after body before =>
      rcases exists_misread body late with ⟨filling, differs⟩
      exact ⟨.single (.group filling after before), differs⟩
  | join left before op after right =>
    cases right with
    | atom content =>
      have lateLeft : ¬ left.OpensAtStart := fun opens => late ⟨opens, content, rfl⟩
      rcases exists_misread left lateLeft with ⟨filling, differs⟩
      refine ⟨filling.join (.atom content (!op.dominant)) before op after, ?_⟩
      change op.combine (filling.expression.value constantTruth)
          (constantTruth (constantAtom (!op.dominant))) =
        !op.combine (forgetful constantTruth filling.expression .and true)
          (constantTruth (constantAtom (!op.dominant)))
      rw [constantTruth_constantAtom, Connective.combine_not_dominant,
        Connective.combine_not_dominant, differs]
    | group inside body outside =>
      by_cases opens : body.OpensAtStart
      · rcases exists_constant_expression left op.dominant with ⟨first, readLeft, _⟩
        rcases exists_constant_expression body (!op.dominant) with ⟨second, readRight, forgot⟩
        refine ⟨first.join (.group second inside outside) before op after, ?_⟩
        change op.combine (first.expression.value constantTruth)
            (second.expression.value constantTruth) =
          !forgetful constantTruth second.expression .and true
        rw [readLeft, readRight, forgot, Connective.combine_not_dominant, Bool.not_not]
      · rcases exists_constant_expression left (!op.dominant) with ⟨first, readLeft, _⟩
        rcases exists_misread body opens with ⟨second, differs⟩
        refine ⟨first.join (.group second inside outside) before op after, ?_⟩
        change op.combine (first.expression.value constantTruth)
            (second.expression.value constantTruth) =
          !forgetful constantTruth second.expression .and true
        rw [readLeft, op.combine_comm, Connective.combine_not_dominant, differs]

/-- Blanks next to parentheses change no result exactly if they stand behind opening parentheses
only, or if all parentheses are opened at the beginning. -/
theorem blanks_harmless_iff (predicate : Expression Atom) (beforeClosing : Bool) :
    (∀ expression : Expression Atom,
      expression.compact.shape = predicate.compact.shape ->
      (beforeClosing = false -> expression.ClosesDirectly) ->
      ∀ (lib : NumericLibrary) (jsonObject : Json) (nodeIndex : Int) (nodeSetSize : Nat),
        applyPredicateRule lib jsonObject
            ⟨renderExpression expression, nodeIndex, nodeSetSize⟩ =
          applyPredicateRule lib jsonObject
            ⟨renderExpression expression.compact, nodeIndex, nodeSetSize⟩) ↔
      beforeClosing = false ∨ predicate.OpensAtStart := by
  constructor
  · intro harmless
    by_cases allowed : beforeClosing = false
    · exact .inl allowed
    · right
      by_contra late
      rcases exists_misread predicate late with ⟨filling, differs⟩
      have evaluates : ∀ content ∈ filling.expression.atoms,
          atomAt integerLibrary .null 0 1 content = .ok (constantTruth content) := by
        intro content member
        rcases filling.chosen content member with ⟨value, rfl⟩
        exact atomAt_constantAtom value
      have same := harmless filling.expression filling.same (fun never => absurd never allowed)
        integerLibrary .null 0 1
      have spaced := applyPredicateRule_of_detached filling.detached evaluates
      have compact := applyPredicateRule_compact integerLibrary .null filling.expression 0 1
      rw [filling.expression.evaluate_eq_value evaluates] at compact
      rw [optionsFor] at compact
      rw [compact] at same
      rw [optionsFor, same, differs] at spaced
      have impossible := Except.ok.inj spaced
      exact absurd impossible (by simp)
  · rintro (onlyBehind | opens) expression same direct lib jsonObject nodeIndex nodeSetSize
    · have spaced := applyPredicateRule_of_closesDirectly lib jsonObject (direct onlyBehind)
        nodeIndex nodeSetSize
      exact spaced.trans
        (applyPredicateRule_compact lib jsonObject expression nodeIndex nodeSetSize).symm
    · have spaced := applyPredicateRule_of_opensAtStart lib jsonObject
        (Expression.opensAtStart_of_shape same opens) nodeIndex nodeSetSize
      exact spaced.trans
        (applyPredicateRule_compact lib jsonObject expression nodeIndex nodeSetSize).symm

/-- A blank before the closing parenthesis makes the evaluator forget that `X`
is absent. -/
theorem blank_before_closing_misread :
    applyPredicateRule integerLibrary (.object [(text "A", .boolean true)])
        ⟨text "X and (A or B)", 0, 1⟩ = .ok false ∧
      applyPredicateRule integerLibrary (.object [(text "A", .boolean true)])
        ⟨text "X and ( A or B )", 0, 1⟩ = .ok true :=
  ⟨rfl, rfl⟩

end Ecclesia.Predicates
