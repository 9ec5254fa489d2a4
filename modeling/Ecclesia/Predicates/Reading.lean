import Ecclesia.Predicates.Grammar

namespace Ecclesia.Predicates

open Absl List

/-!
# The evaluator and the reading of a predicate

The evaluator never builds a tree.  Parentheses that are opened together save
the same pair several times, so that the boolean inside a group may already
be combined with the state outside of it.  That is harmless as long as the
saved pair is applied once more when the group ends: combining with a fixed
operand is constant or the identity, and the inner application is absorbed.

A closing parenthesis that is separated from its operand by a blank is a
piece of its own.  Such a piece leaves the loop before any pair is applied.
-/

/-! ## The evaluator on one piece -/

lemma stripCloseParens_of_head {reversed : Text} (other : reversed.head? ≠ some ')') :
    stripCloseParens reversed = (0, reversed) := by
  cases reversed with
  | nil => rfl
  | cons c rest =>
    have different : c ≠ ')' := by
      intro same
      exact other (by rw [same, head?_cons])
    rw [stripCloseParens]
    intro rest' same
    exact different (cons.inj same).1

lemma stripCloseParens_atom (content : Atom) :
    stripCloseParens content.text.reverse = (0, content.text.reverse) := by
  rcases content.closes with last | ⟨other, _⟩
  · rw [last]
    decide
  · exact stripCloseParens_of_head other

/-- Parentheses behind an atom never complete the expression `last()`. -/
lemma parens_atom_ne_last (content : Atom) (count : Nat) :
    ')' :: (replicate count ')' ++ content.text.reverse) ≠ selectLastIndex.reverse := by
  intro equal
  have tails := (cons.inj equal).2
  cases count with
  | succ count =>
    have heads := (cons.inj tails).1
    cases heads
  | zero =>
    rw [replicate_zero, nil_append] at tails
    have whole : content.text = text "last(" := by
      rw [<- reverse_reverse content.text, tails]
      decide
    rcases content.closes with last | ⟨_, different⟩
    · rw [last] at whole
      exact absurd whole (by decide)
    · exact different whole

lemma stripCloseParens_operand (content : Atom) (count : Nat) :
    stripCloseParens (replicate count ')' ++ content.text.reverse) =
      (count, content.text.reverse) := by
  induction count with
  | zero => exact stripCloseParens_atom content
  | succ count ih =>
    rw [replicate_succ, cons_append, stripCloseParens,
      if_neg (parens_atom_ne_last content count), ih]

lemma stripCloseParens_closes (count : Nat) :
    stripCloseParens (replicate count ')') = (count, []) := by
  induction count with
  | zero => rfl
  | succ count ih =>
    have different : ')' :: replicate count ')' ≠ selectLastIndex.reverse := by
      intro equal
      have member : '(' ∈ ')' :: replicate count ')' := by
        rw [equal]
        decide
      rw [<- replicate_succ] at member
      exact absurd (eq_of_mem_replicate member) (by decide)
    rw [replicate_succ, stripCloseParens, if_neg different, ih]

lemma takeWhile_opened (count : Nat) (rest : Text) (other : rest.head? ≠ some '(') :
    (replicate count '(' ++ rest).takeWhile (· == '(') = replicate count '(' ∧
      (replicate count '(' ++ rest).dropWhile (· == '(') = rest := by
  induction count with
  | zero =>
    cases rest with
    | nil => exact ⟨rfl, rfl⟩
    | cons c rest =>
      have different : (c == '(') = false := by
        apply beq_eq_false_iff_ne.mpr
        intro same
        exact other (by rw [same, head?_cons])
      simp [different]
  | succ count ih =>
    simpa [replicate_succ] using ih

section

variable (lib : NumericLibrary) (jsonObject : Json) (options : PredicateOptions)

variable (state : EvalState)

def evaluateOperand (opened : Nat) (content : Atom) (closed : Nat) :
    Evaluation EvalState :=
  let inner := state.openParens opened
  applyExpression lib jsonObject options
    { inner with parenDepth := inner.parenDepth - closed } content.text closed

variable (count : Nat)

lemma processExpression_opens :
    processExpression lib jsonObject options state (Piece.opens count).render =
      .ok (state.openParens count) := by
  have parts := takeWhile_opened count [] (by simp)
  rw [append_nil] at parts
  simp only [processExpression, Piece.render, parts.2, reverse_nil]
  have stripped : stripCloseParens [] = (0, []) := rfl
  rw [stripped]
  simp

lemma processExpression_closes :
    processExpression lib jsonObject options state (Piece.closes count).render =
      .ok { state with parenDepth := state.parenDepth - count } := by
  have other : (replicate count ')').head? ≠ some '(' := by
    cases count with
    | zero => simp
    | succ count => simp [replicate_succ]
  have parts := takeWhile_opened 0 _ other
  rw [replicate_zero, nil_append] at parts
  simp only [processExpression, Piece.render, parts.2, reverse_replicate, stripCloseParens_closes]
  simp [EvalState.openParens]

lemma processExpression_operator {state : EvalState} (op : Connective)
    (applied : state.logicalOperation = none) :
    processExpression lib jsonObject options state (Piece.operator op).render =
      .ok { state with logicalOperation := some op } := by
  rcases state with ⟨success, pending, stack, depth⟩
  subst applied
  cases op with
  | and =>
    have stripped : stripCloseParens (text "and").reverse = (0, (text "and").reverse) := by decide
    simp [processExpression, Piece.render, operatorText, EvalState.openParens, text,
      logicalOperator?] at stripped ⊢
    simp [stripped]
  | or =>
    have stripped : stripCloseParens (text "or").reverse = (0, (text "or").reverse) := by decide
    simp [processExpression, Piece.render, operatorText, EvalState.openParens, text,
      logicalOperator?] at stripped ⊢
    simp [stripped]

lemma processExpression_operand (opened : Nat) (content : Atom) (closed : Nat) :
    processExpression lib jsonObject options state (Piece.operand opened content closed).render =
      evaluateOperand lib jsonObject options state opened content closed := by
  rcases content.starts with ⟨c, rest, starts, notParen, _⟩
  have other : (content.text ++ replicate closed ')').head? ≠ some '(' := by
    rw [starts]
    intro same
    exact notParen (Option.some.inj same)
  have parts := takeWhile_opened opened _ other
  have present : content.text.isEmpty = false := by
    rw [starts]
    rfl
  simp only [processExpression, Piece.render, parts.1, parts.2, length_replicate,
    reverse_append, reverse_replicate, stripCloseParens_operand, reverse_reverse,
    present, content.notOperator]
  rfl

/-! ## Closing one more parenthesis -/

lemma EvalState.popSaved_succ :
    state.popSaved (count + 1) = (state.popSaved count).bind fun next => next.popSaved 1 := by
  induction count generalizing state with
  | zero => rfl
  | succ count ih =>
    rcases state with ⟨success, pending, stack, depth⟩
    cases stack with
    | nil => rfl
    | cons saved rest =>
      exact ih _

lemma EvalState.popSaved_depth (depth : Int) :
    EvalState.popSaved { state with parenDepth := depth } count =
      (state.popSaved count).map fun next => { next with parenDepth := depth } := by
  induction count generalizing state with
  | zero => rfl
  | succ count ih =>
    rcases state with ⟨success, pending, stack, oldDepth⟩
    cases stack with
    | nil => rfl
    | cons saved rest =>
      have rest := ih ⟨saved.2.combine success saved.1, pending, rest, oldDepth⟩
      simpa only [EvalState.popSaved] using rest

/-- Close a parenthesis that touches the operand just evaluated. -/
def closeOne : Evaluation EvalState :=
  match EvalState.popSaved { state with parenDepth := state.parenDepth - 1 } 1 with
  | some next => .ok next
  | none => mismatchedParenthesis options.predicate

lemma evaluateOperand_succ (opened : Nat) (content : Atom) (closed : Nat) :
    evaluateOperand lib jsonObject options state opened content (closed + 1) =
      evaluateOperand lib jsonObject options state opened content closed >>=
        closeOne options := by
  simp only [evaluateOperand, applyExpression]
  cases pending : (state.openParens opened).logicalOperation with
  | none => rfl
  | some op =>
    cases evaluated : singlePredicateResult lib jsonObject options content.text with
    | error failure => rfl
    | ok result =>
      -- Both sides pop from the same stack; only the recorded depth differs.
      have deeper := EvalState.popSaved_depth
        { state.openParens opened with
          isFilterSuccess := op.combine (state.openParens opened).isFilterSuccess result
          logicalOperation := none } (closed + 1)
        ((state.openParens opened).parenDepth - (closed + 1 : Nat))
      have shallower := EvalState.popSaved_depth
        { state.openParens opened with
          isFilterSuccess := op.combine (state.openParens opened).isFilterSuccess result
          logicalOperation := none } closed
        ((state.openParens opened).parenDepth - closed)
      simp only [bind, Except.bind] at *
      rw [deeper, shallower, EvalState.popSaved_succ]
      cases popped : EvalState.popSaved
          { state.openParens opened with
            isFilterSuccess := op.combine (state.openParens opened).isFilterSuccess result
            logicalOperation := none } closed with
      | none => rfl
      | some next =>
        have again := EvalState.popSaved_depth next 1
          ((state.openParens opened).parenDepth - closed - 1)
        have depths : (state.openParens opened).parenDepth - ((closed + 1 : Nat) : Int) =
            (state.openParens opened).parenDepth - closed - 1 := by omega
        simp only [Option.map_some, Option.bind_some, closeOne, depths]
        cases once : next.popSaved 1 with
        | none => simp only [again, once, Option.map_none]
        | some last => simp only [again, once, Option.map_some]

/-! ## Running over the pieces of an expression -/

variable (scanned : List Piece × Piece)

/-- Process finished pieces and the current one. -/
def runPieces : Evaluation EvalState :=
  processExpressions lib jsonObject options state ((scanned.1 ++ [scanned.2]).map Piece.render)

lemma processExpressions_append (first second : List Text) :
    processExpressions lib jsonObject options state (first ++ second) =
      processExpressions lib jsonObject options state first >>=
        fun next => processExpressions lib jsonObject options next second := by
  simp [processExpressions]

lemma runPieces_eq : runPieces lib jsonObject options state scanned =
      processExpressions lib jsonObject options state (scanned.1.map Piece.render) >>=
        fun next => processExpression lib jsonObject options next scanned.2.render := by
  rw [runPieces, map_append, processExpressions_append]
  congr 1
  funext next
  simp [processExpressions]

/-- A run fails as the reading of an expression does, or ends in a state that is related to it. -/
def ReadsAs (reading : Evaluation Bool) (run : Evaluation EvalState)
    (post : Bool -> EvalState -> Prop) : Prop :=
  match reading with
  | .error failure => run = .error failure
  | .ok value => ∃ final, run = .ok final ∧ post value final

variable {run : Evaluation EvalState} {post after : Bool -> EvalState -> Prop}
  {next : EvalState -> Evaluation EvalState}

lemma ReadsAs.bind {reading : Evaluation Bool} (reads : ReadsAs reading run post)
    (continues : ∀ value state, post value state ->
      ∃ final, next state = .ok final ∧ after value final) :
    ReadsAs reading (run >>= next) after := by
  cases reading with
  | error failure =>
    rw [reads]
    exact rfl
  | ok value =>
    rcases reads with ⟨state, ran, holds⟩
    rcases continues value state holds with ⟨final, stepped, related⟩
    exact ⟨final, by rw [ran]; exact stepped, related⟩

lemma ReadsAs.imp {reading : Evaluation Bool} (reads : ReadsAs reading run post)
    (weaker : ∀ value final, post value final -> after value final) :
    ReadsAs reading run after := by
  cases reading with
  | error failure => exact reads
  | ok value =>
    rcases reads with ⟨final, ran, holds⟩
    exact ⟨final, ran, weaker value final holds⟩

lemma ReadsAs.join {first second : Evaluation Bool}
    (op : Connective) (post : Bool -> EvalState -> Prop) (reads : ReadsAs first run post)
    (continues : ∀ value state, post value state ->
      ReadsAs second (next state) fun other final => after (op.combine value other) final) :
    ReadsAs (first >>= fun value => second >>= fun other => pure (op.combine value other))
      (run >>= next) after := by
  cases first with
  | error failure =>
    rw [reads]
    exact rfl
  | ok value =>
    rcases reads with ⟨state, ran, holds⟩
    have rest := continues value state holds
    cases second with
    | error failure =>
      rw [ran]
      exact rest
    | ok other =>
      rcases rest with ⟨final, stepped, related⟩
      exact ⟨final, by rw [ran]; exact stepped, related⟩

/-- The value of one atom. -/
def atomResult (content : Atom) : Evaluation Bool :=
  singlePredicateResult lib jsonObject options content.text

lemma evaluateOperand_atom (success : Bool) (op : Connective) (stack : List (Bool × Connective))
    (depth : Int) (pending : Nat) (content : Atom) :
    ReadsAs (atomResult lib jsonObject options content)
      (evaluateOperand lib jsonObject options ⟨success, some op, stack, depth⟩ pending content 0)
      (fun value final => ∃ reached,
        final = ⟨reached, none, replicate pending (success, op) ++ stack, depth + pending⟩ ∧
        op.combine reached success = op.combine value success ∧
        (pending = 0 -> reached = op.combine success value)) := by
  unfold atomResult
  cases evaluated : singlePredicateResult lib jsonObject options content.text with
  | error failure =>
    change evaluateOperand lib jsonObject options _ pending content 0 = .error failure
    cases pending <;>
      simp [evaluateOperand, applyExpression, EvalState.openParens, evaluated, bind, Except.bind]
  | ok value =>
    cases pending with
    | zero =>
      refine ⟨⟨op.combine success value, none, stack, depth⟩, ?_,
        op.combine success value, ?_, ?_, fun _ => rfl⟩
      · simp [evaluateOperand, applyExpression, EvalState.openParens, evaluated,
          EvalState.popSaved, bind, Except.bind]
      · simp
      · rw [op.combine_comm success value, op.combine_idempotent]
    | succ pending =>
      refine ⟨⟨value, none, replicate (pending + 1) (success, op) ++ stack,
        depth + (pending + 1 : Nat)⟩, ?_, value, rfl, rfl, fun impossible => nomatch impossible⟩
      simp [evaluateOperand, applyExpression, EvalState.openParens, evaluated,
        EvalState.popSaved, bind, Except.bind]

lemma runPieces_close {opened closed : Nat} {content : Atom}
    (last : scanned.2 = .operand opened content closed) (state : EvalState) :
    runPieces lib jsonObject options state (closePieces scanned 0) =
      runPieces lib jsonObject options state scanned >>= closeOne options := by
  rw [runPieces_eq, runPieces_eq]
  simp only [closePieces, if_true, last, Piece.close, processExpression_operand,
    evaluateOperand_succ]
  exact (bind_assoc _ _ _).symm

mutual

theorem operandPieces_last {operand : Operand Atom} (pending : Nat)
    (direct : operand.ClosesDirectly) :
    ∃ opened content closed,
      (operandPieces pending operand).2 = .operand opened content closed := by
  cases operand with
  | atom content => exact ⟨pending, content, 0, rfl⟩
  | group after body before =>
    rcases direct with ⟨inner, rfl⟩
    by_cases touching : after = 0
    · rcases expressionPieces_last (pending + 1) inner with ⟨opened, content, closed, last⟩
      refine ⟨opened, content, closed + 1, ?_⟩
      simp [operandPieces, touching, closePieces, last, Piece.close]
    · rcases expressionPieces_last 0 inner with ⟨opened, content, closed, last⟩
      refine ⟨opened, content, closed + 1, ?_⟩
      simp [operandPieces, touching, closePieces, last, Piece.close]

theorem expressionPieces_last {expression : Expression Atom} (pending : Nat)
    (direct : expression.ClosesDirectly) :
    ∃ opened content closed,
      (expressionPieces pending expression).2 = .operand opened content closed := by
  cases expression with
  | single operand => exact operandPieces_last pending direct
  | join left before op after right => exact operandPieces_last 0 direct.2

end

lemma runPieces_join (pending : Nat) (left : Expression Atom) (before : Nat) (op : Connective)
    (after : Nat) (right : Operand Atom) (state : EvalState) :
    runPieces lib jsonObject options state
        (expressionPieces pending (.join left before op after right)) =
      (runPieces lib jsonObject options state (expressionPieces pending left) >>= fun next =>
        processExpression lib jsonObject options next (Piece.operator op).render) >>= fun next =>
          runPieces lib jsonObject options next (operandPieces 0 right) := by
  have regroup : ((expressionPieces pending (.join left before op after right)).1 ++
      [(expressionPieces pending (.join left before op after right)).2]) =
      (((expressionPieces pending left).1 ++ [(expressionPieces pending left).2]) ++
        [Piece.operator op]) ++ ((operandPieces 0 right).1 ++ [(operandPieces 0 right).2]) := by
    simp [expressionPieces]
  rw [runPieces, regroup, map_append, processExpressions_append, map_append,
    processExpressions_append]
  simp only [runPieces, processExpressions, map_cons, map_nil, foldlM_cons, foldlM_nil, bind_pure]

lemma runPieces_opens (state : EvalState) :
    runPieces lib jsonObject options state (.opens count :: scanned.1, scanned.2) =
      runPieces lib jsonObject options (state.openParens count) scanned := by
  simp only [runPieces, cons_append, map_cons, processExpressions, foldlM_cons,
    processExpression_opens]
  rfl

/-! ## Parentheses that close directly -/

/-- The state after an operand with `pending` parentheses in front of it: the boolean is the value
read, up to what a later application of the saved pair absorbs. -/
def Absorbed (success : Bool) (op : Connective) (stack : List (Bool × Connective)) (depth : Int)
    (pending : Nat) (value : Bool) (final : EvalState) : Prop :=
  ∃ reached,
    final = ⟨reached, none, List.replicate pending (success, op) ++ stack, depth + pending⟩ ∧
    op.combine reached success = op.combine value success

/-- Closing the innermost parenthesis applies the saved pair. -/
lemma Absorbed.closeOne {success : Bool} {op : Connective} {stack : List (Bool × Connective)}
    {depth : Int} {pending : Nat} {value : Bool} {state : EvalState}
    (absorbed : Absorbed success op stack depth (pending + 1) value state) :
    Predicates.closeOne options state =
      .ok ⟨op.combine value success, none, replicate pending (success, op) ++ stack,
        depth + pending⟩ := by
  rcases absorbed with ⟨reached, rfl, same⟩
  have depths : depth + ((pending + 1 : Nat) : Int) - 1 = depth + pending := by omega
  simp only [Predicates.closeOne, replicate_succ, cons_append, EvalState.popSaved, same, depths]

mutual

theorem reads_operand (pending : Nat) (operand : Operand Atom)
    (direct : operand.ClosesDirectly) (success : Bool) (op : Connective)
    (stack : List (Bool × Connective)) (depth : Int) :
    ReadsAs (operand.evaluate (atomResult lib jsonObject options))
      (runPieces lib jsonObject options ⟨success, some op, stack, depth⟩
        (operandPieces pending operand))
      (fun value final => ∃ reached,
        final = ⟨reached, none, replicate pending (success, op) ++ stack, depth + pending⟩ ∧
        op.combine reached success = op.combine value success ∧
        (pending = 0 -> reached = op.combine success value)) := by
  cases operand with
  | atom content =>
    have single := evaluateOperand_atom lib jsonObject options success op stack depth pending
      content
    rw [<- processExpression_operand] at single
    rw [runPieces_eq]
    exact single
  | group after body before =>
    rcases direct with ⟨inner, rfl⟩
    -- Whether or not blanks follow the opening parenthesis, the saved pairs
    -- of this group and of the pending ones end up on the stack.
    have body_reads : ReadsAs (body.evaluate (atomResult lib jsonObject options))
        (runPieces lib jsonObject options ⟨success, some op, stack, depth⟩
          (operandPieces pending (.group after body 0)))
        (fun value final => final =
          ⟨op.combine value success, none, replicate pending (success, op) ++ stack,
            depth + pending⟩) := by
      by_cases touching : after = 0
      · rcases expressionPieces_last (pending + 1) inner with ⟨opened, content, closed, last⟩
        simp only [operandPieces, touching, if_true]
        rw [runPieces_close lib jsonObject options _ last]
        refine (reads_expression (pending + 1) body inner success op stack depth
          (fun impossible => nomatch impossible)).bind ?_
        intro value state absorbed
        exact ⟨_, absorbed.closeOne options, rfl⟩
      · rcases expressionPieces_last 0 inner with ⟨opened, content, closed, last⟩
        simp only [operandPieces, touching, if_false]
        rw [runPieces_close lib jsonObject options
          (.opens (pending + 1) :: (expressionPieces 0 body).1,
            (expressionPieces 0 body).2) last, runPieces_opens]
        refine (reads_expression 0 body inner true .and
          (replicate (pending + 1) (success, op) ++ stack) (depth + (pending + 1 : Nat))
          (fun _ => ⟨rfl, rfl⟩)).bind ?_
        rintro value state ⟨reached, rfl, same⟩
        simp only [Connective.and_combine_true_right] at same
        subst same
        have absorbed : Absorbed success op stack depth (pending + 1) reached
            ⟨reached, none, replicate (pending + 1) (success, op) ++ stack,
              depth + (pending + 1 : Nat)⟩ := ⟨reached, rfl, rfl⟩
        refine ⟨_, ?_, rfl⟩
        simpa using absorbed.closeOne options
    apply body_reads.imp
    rintro value final rfl
    exact ⟨_, rfl, op.combine_idempotent success value, fun _ => op.combine_comm value success⟩

theorem reads_expression (pending : Nat) (expression : Expression Atom)
    (direct : expression.ClosesDirectly) (success : Bool) (op : Connective)
    (stack : List (Bool × Connective)) (depth : Int)
    (top : pending = 0 -> success = true ∧ op = .and) :
    ReadsAs (expression.evaluate (atomResult lib jsonObject options))
      (runPieces lib jsonObject options ⟨success, some op, stack, depth⟩
        (expressionPieces pending expression))
      (Absorbed success op stack depth pending) := by
  cases expression with
  | single operand =>
    apply (reads_operand pending operand direct success op stack depth).imp
    rintro value final ⟨reached, equal, same, _⟩
    exact ⟨reached, equal, same⟩
  | join left before second after right =>
    rw [runPieces_join]
    refine .join second (fun value state => ∃ reached,
        state = ⟨reached, some second, replicate pending (success, op) ++ stack, depth + pending⟩ ∧
        op.combine reached success = op.combine value success) ?_ ?_
    · -- The connective is stored, and nothing else changes.
      apply (reads_expression pending left direct.1 success op stack depth top).bind
      rintro value state ⟨reached, rfl, same⟩
      exact ⟨_, processExpression_operator lib jsonObject options second rfl, reached, rfl, same⟩
    · rintro value state ⟨reached, rfl, same⟩
      refine (reads_operand 0 right direct.2 reached second
        (replicate pending (success, op) ++ stack) (depth + pending)).imp ?_
      rintro other final ⟨atEnd, rfl, _, exactly⟩
      refine ⟨atEnd, by simp, ?_⟩
      rw [exactly rfl]
      exact op.combine_absorbs success (fun x => second.combine x other) same

end

end

/-! ## The result of a whole predicate -/

def optionsFor (expression : Expression Atom) (nodeIndex : Int) (nodeSetSize : Nat) :
    PredicateOptions :=
  ⟨renderExpression expression, nodeIndex, nodeSetSize⟩

/-- The value of an atom at a position of a node set.  It does not depend on
the predicate around the atom. -/
def atomAt (lib : NumericLibrary) (jsonObject : Json) (nodeIndex : Int) (nodeSetSize : Nat)
    (content : Atom) : Evaluation Bool :=
  singlePredicateResult lib jsonObject ⟨content.text, nodeIndex, nodeSetSize⟩ content.text

lemma applyPredicateRule_render (lib : NumericLibrary) (jsonObject : Json)
    (expression : Expression Atom) (nodeIndex : Int) (nodeSetSize : Nat) :
    applyPredicateRule lib jsonObject (optionsFor expression nodeIndex nodeSetSize) =
      (runPieces lib jsonObject (optionsFor expression nodeIndex nodeSetSize) .start
        (expressionPieces 0 expression) >>= fun final =>
          if final.parenDepth ≠ 0 then mismatchedParenthesis (renderExpression expression)
          else return final.isFilterSuccess) := by
  have present : (renderExpression expression).isEmpty = false := by
    simpa [List.isEmpty_iff] using render_ne_nil expression
  simp only [applyPredicateRule, optionsFor, present, (trimmed_expression expression).strip,
    splitExpressions_render]
  rfl

variable {expression : Expression Atom}

lemma applyPredicateRule_of_readsAs {lib : NumericLibrary} {jsonObject : Json} {nodeIndex : Int}
    {nodeSetSize : Nat}
    (reads : ReadsAs (expression.evaluate (atomAt lib jsonObject nodeIndex nodeSetSize))
      (runPieces lib jsonObject (optionsFor expression nodeIndex nodeSetSize) .start
        (expressionPieces 0 expression))
      (fun value final => final.isFilterSuccess = value ∧ final.parenDepth = 0)) :
    applyPredicateRule lib jsonObject (optionsFor expression nodeIndex nodeSetSize) =
      expression.evaluate (atomAt lib jsonObject nodeIndex nodeSetSize) := by
  rw [applyPredicateRule_render]
  cases read : expression.evaluate (atomAt lib jsonObject nodeIndex nodeSetSize) with
  | error failure =>
    rw [read] at reads
    rw [reads]
    rfl
  | ok value =>
    rw [read] at reads
    rcases reads with ⟨final, ran, success, depth⟩
    rw [ran]
    simp only [bind, Except.bind, depth, success]
    rfl

lemma applyPredicateRule_of_closesDirectly (lib : NumericLibrary) (jsonObject : Json)
    (direct : expression.ClosesDirectly) (nodeIndex : Int) (nodeSetSize : Nat) :
    applyPredicateRule lib jsonObject (optionsFor expression nodeIndex nodeSetSize) =
      expression.evaluate (atomAt lib jsonObject nodeIndex nodeSetSize) := by
  apply applyPredicateRule_of_readsAs
  refine (reads_expression lib jsonObject (optionsFor expression nodeIndex nodeSetSize) 0
    expression direct true .and [] 0 (fun _ => ⟨rfl, rfl⟩)).imp ?_
  rintro value final ⟨reached, rfl, same⟩
  simp only [Connective.and_combine_true_right] at same
  exact ⟨same, rfl⟩

lemma applyPredicateRule_compact (lib : NumericLibrary) (jsonObject : Json)
    (expression : Expression Atom) (nodeIndex : Int) (nodeSetSize : Nat) :
    applyPredicateRule lib jsonObject (optionsFor expression.compact nodeIndex nodeSetSize) =
      expression.evaluate (atomAt lib jsonObject nodeIndex nodeSetSize) := by
  rw [applyPredicateRule_of_closesDirectly lib jsonObject expression.compact_closesDirectly,
    Expression.evaluate_compact]

/-- `ApplyPredicateRule` agrees with the reading of RedPath predicates: for every expression over
atoms that evaluate, with its parentheses against them, it succeeds with the value of the tree read
from left to right. -/
theorem applyPredicateRule_eq_value (lib : NumericLibrary) (jsonObject : Json)
    (nodeIndex : Int) (nodeSetSize : Nat) (expression : Expression Atom) (value : Atom -> Bool)
    (evaluates : ∀ content ∈ expression.atoms,
      atomAt lib jsonObject nodeIndex nodeSetSize content = .ok (value content)) :
    applyPredicateRule lib jsonObject
        ⟨renderExpression expression.compact, nodeIndex, nodeSetSize⟩ =
      .ok (expression.value value) := by
  have read := applyPredicateRule_compact lib jsonObject expression nodeIndex nodeSetSize
  rw [expression.evaluate_eq_value evaluates] at read
  exact read

/-! ## A concrete predicate -/

def atomX : Atom :=
  ⟨text "X", by decide, by decide, ⟨'X', [], rfl, by decide, by decide⟩,
    ⟨'X', [], rfl, by decide⟩, .inr (by decide)⟩

def atomSize : Atom :=
  ⟨text "Size=8", by decide, by decide, ⟨'S', text "ize=8", rfl, by decide, by decide⟩,
    ⟨'8', text "=eziS", rfl, by decide⟩, .inr (by decide)⟩

def atomLast : Atom :=
  ⟨text "last()", by decide, by decide, ⟨'l', text "ast()", rfl, by decide, by decide⟩,
    ⟨')', text "(tsal", rfl, by decide⟩, .inl rfl⟩

def atomAll : Atom :=
  ⟨text "*", by decide, by decide, ⟨'*', [], rfl, by decide, by decide⟩,
    ⟨'*', [], rfl, by decide⟩, .inr (by decide)⟩

/-- `X or ((last() and Size=8) and *)` -/
def nestedPredicate : Expression Atom :=
  .join (.single (.atom atomX)) 0 .or 0
    (.group 0 (.join (.single (.group 0
      (.join (.single (.atom atomLast)) 0 .and 0 (.atom atomSize)) 0)) 0 .and 0 (.atom atomAll)) 0)

/-- A resource with `Size` 8, at the last position of three. -/
theorem applyPredicateRule_nestedPredicate :
    applyPredicateRule integerLibrary (.object [(text "Size", .integer 8)])
      ⟨text "X or ((last() and Size=8) and *)", 2, 3⟩ = .ok true := by
  have agrees := applyPredicateRule_eq_value integerLibrary
    (.object [(text "Size", .integer 8)]) 2 3 nestedPredicate
    (fun content => decide (content.text ≠ text "X")) (by
      intro content member
      simp only [nestedPredicate, Expression.atoms, Operand.atoms, List.mem_append,
        List.mem_cons, List.not_mem_nil, or_false] at member
      rcases member with rfl | (rfl | rfl) | rfl <;> rfl)
  exact agrees

end Ecclesia.Predicates
