import Ecclesia.Library.Sentences
import Ecclesia.Predicates.Rule

namespace Ecclesia.Predicates

open Absl List Option
open Throughout (concat_iff)

/-!
# Which predicates are accepted

The evaluator looks at one expression of a predicate at a time, with the parentheses at its
ends.  It checks that atoms and connectives alternate, that no atom ends more groups than have
been saved, and at last that there are as many closing as opening parentheses.  The grammar
asks for more: a group begins where an operand is missing, it ends where none is, and only if
it has begun.
-/

/-- What stands between the parentheses of an expression. -/
inductive Word where
  | operator (op : Connective)
  | atom (content : Text)

/-- An expression without its parentheses, which are counted. -/
structure Chunk where
  opened : Nat
  word : Option Word
  closed : Nat

def readWord (inner : Text) : Option Word :=
  if inner.isEmpty then none
  else
    match logicalOperator? inner with
    | some op => some (.operator op)
    | none => some (.atom inner)

/-- An expression as the evaluator takes it apart. -/
def readChunk (expr : Text) : Chunk :=
  let (savedStateCount, reversed) := stripCloseParens (expr.dropWhile (· == '(')).reverse
  ⟨(expr.takeWhile (· == '(')).length, readWord reversed.reverse, savedStateCount⟩

def Word.token : Word -> Token Text
  | .operator op => .operator op
  | .atom content => .atom content

namespace Chunk

/-- The tokens before the parentheses at the end. -/
def front (chunk : Chunk) : List (Token Text) :=
  List.replicate chunk.opened .opening ++ (chunk.word.map Word.token).toList

def tokens (chunk : Chunk) : List (Token Text) :=
  chunk.front ++ List.replicate chunk.closed .closing

/-- The groups that an atom ends. -/
def attached (chunk : Chunk) : Nat :=
  match chunk.word with
  | some (.atom _) => chunk.closed
  | _ => 0

end Chunk

def chunksOf (predicate : Text) : List Chunk :=
  (splitExpressions (stripAsciiWhitespace predicate)).map readChunk

def tokensIn (chunks : List Chunk) : List (Token Text) :=
  chunks.flatMap Chunk.tokens

def tokensOf (predicate : Text) : List (Token Text) :=
  tokensIn (chunksOf predicate)

def attachedIn (chunks : List Chunk) : Nat :=
  (chunks.map Chunk.attached).sum

lemma tokensIn_concat (chunks : List Chunk) (chunk : Chunk) :
    tokensIn (chunks ++ [chunk]) = tokensIn chunks ++ chunk.tokens := by
  unfold tokensIn
  rw [flatMap_append, flatMap_singleton]

lemma attachedIn_concat (chunks : List Chunk) (chunk : Chunk) :
    attachedIn (chunks ++ [chunk]) = attachedIn chunks + chunk.attached := by
  unfold attachedIn
  rw [map_append, sum_append, map_singleton, sum_singleton]

section

variable {tokens : List (Token Text)}

lemma throughout_parentheses {Legal : List (Token Text) -> Token Text -> Prop}
    {token : Token Text} (anywhere : ∀ before, Legal before token) (count : Nat) :
    Throughout Legal (tokens ++ replicate count token) ↔ Throughout Legal tokens := by
  induction count with
  | zero => rw [replicate_zero, append_nil]
  | succ count ih =>
    rw [replicate_succ', <- append_assoc, concat_iff, ih]
    exact and_iff_left (anywhere _)

section

variable (count : Nat)

lemma waiting_openings : waiting (tokens ++ replicate (count + 1) .opening) = true := by
  rw [replicate_succ', <- append_assoc, waiting_concat]
  rfl

@[simp] lemma waiting_closings : waiting (tokens ++ replicate count .closing) = waiting tokens := by
  induction count with
  | zero => rw [replicate_zero, append_nil]
  | succ count ih =>
    rw [replicate_succ', <- append_assoc, waiting_concat]
    exact ih

@[simp] lemma openings_openings : openings (replicate count (.opening : Token Text)) = count := by
  simp [openings, countP_replicate, Token.isOpening]

@[simp] lemma closings_closings : closings (replicate count (.closing : Token Text)) = count := by
  simp [closings, countP_replicate, Token.isClosing]

@[simp] lemma openings_closings : openings (replicate count (.closing : Token Text)) = 0 := by
  simp [openings, countP_replicate, Token.isOpening]

@[simp] lemma closings_openings : closings (replicate count (.opening : Token Text)) = 0 := by
  simp [closings, countP_replicate, Token.isClosing]

end

end

lemma parentheses_word (word : Option Word) :
    openings (word.map Word.token).toList = 0 ∧ closings (word.map Word.token).toList = 0 := by
  cases word with
  | none => exact ⟨rfl, rfl⟩
  | some word =>
    cases word with
    | operator op => exact ⟨rfl, rfl⟩
    | atom content => exact ⟨rfl, rfl⟩

@[simp] lemma openings_front (chunk : Chunk) : openings chunk.front = chunk.opened := by
  unfold Chunk.front
  rw [openings_append, openings_openings, (parentheses_word chunk.word).1, Nat.add_zero]

@[simp] lemma closings_front (chunk : Chunk) : closings chunk.front = 0 := by
  unfold Chunk.front
  rw [closings_append, closings_openings, (parentheses_word chunk.word).2]

@[simp] lemma openings_tokens (chunk : Chunk) : openings chunk.tokens = chunk.opened := by
  unfold Chunk.tokens
  rw [openings_append, openings_front, openings_closings, Nat.add_zero]

@[simp] lemma closings_tokens (chunk : Chunk) : closings chunk.tokens = chunk.closed := by
  unfold Chunk.tokens
  rw [closings_append, closings_front, closings_closings, Nat.zero_add]

section

variable (lib : NumericLibrary) (jsonObject : Json) (options : PredicateOptions)

variable (before : List Chunk) (state : EvalState) (chunk : Chunk)

/-- One turn of the evaluation loop, after the parentheses have been counted. -/
def processChunk : Evaluation EvalState :=
  let opened := state.openParens chunk.opened
  let closed := { opened with parenDepth := opened.parenDepth - chunk.closed }
  match chunk.word with
  | none => .ok closed
  | some (.operator op) =>
    match closed.logicalOperation with
    | some _ => invalidPredicate options.predicate
    | none => .ok { closed with logicalOperation := some op }
  | some (.atom content) =>
    applyExpression lib jsonObject options closed content chunk.closed

lemma processExpression_eq (expr : Text) :
    processExpression lib jsonObject options state expr =
      processChunk lib jsonObject options state (readChunk expr) := by
  unfold processExpression processChunk readChunk readWord
  simp only
  split
  next => rfl
  next =>
    cases logicalOperator? _ with
    | none => rfl
    | some op => rfl

variable (chunks : List Chunk)

/-- The state of the evaluator after some chunks. -/
structure Corresponds : Prop where
  pending : state.logicalOperation.isSome = waiting (tokensIn chunks)
  saved : state.stack.length + attachedIn chunks = openings (tokensIn chunks)
  depth : state.parenDepth = openings (tokensIn chunks) - closings (tokensIn chunks)

/-- No atom ends more groups than have been saved. -/
def Covered : Prop :=
  ∀ content, chunk.word = some (.atom content) ->
    attachedIn before + chunk.closed <= openings (tokensIn before) + chunk.opened

/-- Every atom has a value. -/
def Evaluates (tokens : List (Token Text)) : Prop :=
  ∀ content, .atom content ∈ tokens ->
    ∃ value, singlePredicateResult lib jsonObject options content = .ok value

/-- What the evaluator asks of a chunk. -/
def Fits : Prop :=
  match chunk.word with
  | none => True
  | some (.operator _) =>
    waiting (tokensIn before ++ List.replicate chunk.opened .opening) = false
  | some (.atom content) =>
    waiting (tokensIn before ++ List.replicate chunk.opened .opening) = true ∧
      (∃ value, singlePredicateResult lib jsonObject options content = .ok value) ∧
        Covered before chunk

lemma popSaved_some_iff (count : Nat) :
    (∃ next, state.popSaved count = some next) ↔ count <= state.stack.length := by
  induction count generalizing state with
  | zero => exact ⟨fun _ => Nat.zero_le _, fun _ => ⟨state, rfl⟩⟩
  | succ count ih =>
    rcases state with ⟨success, operation, stack, depth⟩
    cases stack with
    | nil =>
      constructor
      · rintro ⟨next, impossible⟩
        cases impossible
      · intro impossible
        exact absurd impossible (Nat.not_succ_le_zero count)
    | cons saved rest =>
      exact (ih _).trans Nat.succ_le_succ_iff.symm

lemma popSaved_keeps {state next : EvalState} {count : Nat}
    (popped : state.popSaved count = some next) :
    next.logicalOperation = state.logicalOperation ∧ next.parenDepth = state.parenDepth ∧
      next.stack.length + count = state.stack.length := by
  induction count generalizing state with
  | zero =>
    cases popped
    exact ⟨rfl, rfl, rfl⟩
  | succ count ih =>
    rcases state with ⟨success, operation, stack, depth⟩
    cases stack with
    | nil => cases popped
    | cons saved rest =>
      rcases ih popped with ⟨operation, depth, length⟩
      exact ⟨operation, depth, congrArg Nat.succ length⟩

/-- What has happened when an atom has been applied. -/
lemma applyExpression_ok_iff (content : Text) (count : Nat) (next : EvalState) :
    applyExpression lib jsonObject options state content count = .ok next ↔
      ∃ op result, state.logicalOperation = some op ∧
        singlePredicateResult lib jsonObject options content = .ok result ∧
          EvalState.popSaved { state with
            isFilterSuccess := op.combine state.isFilterSuccess result
            logicalOperation := none } count = some next := by
  unfold applyExpression
  cases state.logicalOperation with
  | none =>
    constructor
    · intro impossible
      cases impossible
    · rintro ⟨_, _, impossible, _⟩
      cases impossible
  | some op =>
    cases singlePredicateResult lib jsonObject options content with
    | error failure =>
      constructor
      · intro impossible
        cases impossible
      · rintro ⟨_, _, _, impossible, _⟩
        cases impossible
    | ok result =>
      simp only [bind, Except.bind]
      constructor
      · intro applied
        refine ⟨op, result, rfl, rfl, ?_⟩
        split at applied
        next popped =>
          rw [popped, Except.ok.inj applied]
        next => cases applied
      · rintro ⟨_, _, sameOp, sameResult, popped⟩
        cases sameOp
        cases sameResult
        rw [popped]

section

variable {lib jsonObject options} {before : List Chunk} {state : EvalState}

section

variable (corresponds : Corresponds state before)

include corresponds

lemma Corresponds.openParens (count : Nat) :
    (state.openParens count).logicalOperation.isSome =
        waiting (tokensIn before ++ replicate count .opening) ∧
      (state.openParens count).stack.length = state.stack.length + count ∧
      (state.openParens count).parenDepth = state.parenDepth + count := by
  unfold EvalState.openParens
  cases count with
  | zero =>
    refine ⟨?_, rfl, (Int.add_zero _).symm⟩
    rw [if_pos rfl, replicate_zero, append_nil]
    exact corresponds.pending
  | succ count =>
    rw [waiting_openings]
    refine ⟨rfl, ?_, rfl⟩
    simp [Nat.add_comm]

lemma Corresponds.takes_iff (chunk : Chunk) :
    (∃ next, processChunk lib jsonObject options state chunk = .ok next) ↔
      Fits lib jsonObject options before chunk := by
  rcases corresponds.openParens chunk.opened with ⟨pending, saved, _⟩
  have count := corresponds.saved
  rcases chunk with ⟨opened, word, closed⟩
  unfold processChunk Fits
  rcases word with _ | op | content
  · exact ⟨fun _ => trivial, fun _ => ⟨_, rfl⟩⟩
  · simp only at pending ⊢
    rw [<- pending]
    cases (state.openParens opened).logicalOperation with
    | none => exact ⟨fun _ => rfl, fun _ => ⟨_, rfl⟩⟩
    | some other =>
      constructor
      · rintro ⟨next, impossible⟩
        cases impossible
      · intro impossible
        cases impossible
  · simp only [applyExpression_ok_iff, Covered] at pending saved ⊢
    rw [<- pending]
    constructor
    · rintro ⟨next, op, result, isPending, evaluated, popped⟩
      have lengths := (popSaved_keeps popped).2.2
      simp only at lengths
      exact ⟨by rw [isPending]; rfl, ⟨result, evaluated⟩, fun _ _ => by omega⟩
    · rintro ⟨isPending, ⟨result, evaluated⟩, isCovered⟩
      have covered := isCovered content rfl
      rcases isSome_iff_exists.mp isPending with ⟨op, isOp⟩
      have room : closed <= (state.openParens opened).stack.length := by omega
      rcases (popSaved_some_iff { state.openParens opened with
        isFilterSuccess := op.combine (state.openParens opened).isFilterSuccess result
        logicalOperation := none
        parenDepth := (state.openParens opened).parenDepth - closed } closed).mpr room with
        ⟨next, popped⟩
      exact ⟨next, op, result, isOp, evaluated, popped⟩

lemma Corresponds.step {chunk : Chunk}
    {next : EvalState} (taken : processChunk lib jsonObject options state chunk = .ok next) :
    Corresponds next (before ++ [chunk]) := by
  rcases corresponds.openParens chunk.opened with ⟨pending, saved, deeper⟩
  have count := corresponds.saved
  have depth := corresponds.depth
  have tokens := tokensIn_concat before chunk
  have front : tokensIn before ++ chunk.tokens =
      tokensIn before ++ replicate chunk.opened .opening ++
        (chunk.word.map Word.token).toList ++ replicate chunk.closed .closing := by
    simp [Chunk.tokens, Chunk.front]
  suffices exactly : next.logicalOperation.isSome =
        waiting (tokensIn before ++ replicate chunk.opened .opening ++
          (chunk.word.map Word.token).toList) ∧
      next.stack.length + chunk.attached = state.stack.length + chunk.opened ∧
      next.parenDepth = state.parenDepth + chunk.opened - chunk.closed by
    rcases exactly with ⟨operation, length, depthAfter⟩
    constructor
    · rw [tokens, front, waiting_closings]
      exact operation
    · rw [tokens, attachedIn_concat, openings_append, openings_tokens]
      omega
    · rw [tokens, openings_append, openings_tokens, closings_append, closings_tokens]
      omega
  unfold processChunk at taken
  rcases chunk with ⟨opened, word, closed⟩
  rcases word with _ | op | content
  · cases taken
    refine ⟨?_, saved, congrArg (· - (closed : Int)) deeper⟩
    simpa using pending
  · simp only at taken pending saved deeper ⊢
    split at taken
    next => cases taken
    next =>
      cases taken
      refine ⟨?_, saved, congrArg (· - (closed : Int)) deeper⟩
      exact (waiting_concat (.operator op)).symm
  · simp only [applyExpression_ok_iff] at taken pending saved deeper ⊢
    rcases taken with ⟨op, result, _, _, popped⟩
    rcases popSaved_keeps popped with ⟨operation, depthAfter, length⟩
    refine ⟨?_, length.trans saved, ?_⟩
    · rw [operation]
      exact (waiting_concat (.atom content)).symm
    · rw [depthAfter, deeper]

end

lemma corresponds_start : Corresponds .start [] := ⟨rfl, rfl, rfl⟩

lemma Corresponds.of_run {chunks : List Chunk} {final : EvalState}
    (ran : chunks.foldlM (processChunk lib jsonObject options) .start = .ok final) :
    Corresponds final chunks := by
  induction chunks using reverseRecOn generalizing final with
  | nil =>
    cases ran
    exact corresponds_start
  | append_singleton before chunk ih =>
    simp only [foldlM_append, foldlM_cons, foldlM_nil, bind_pure] at ran
    cases earlier : before.foldlM (processChunk lib jsonObject options) .start with
    | error failure =>
      rw [earlier] at ran
      cases ran
    | ok state =>
      rw [earlier] at ran
      exact (ih earlier).step ran

lemma run_ok_iff (chunks : List Chunk) :
    (∃ final, chunks.foldlM (processChunk lib jsonObject options) .start = .ok final) ↔
      Throughout (Fits lib jsonObject options) chunks := by
  induction chunks using reverseRecOn with
  | nil => exact ⟨fun _ => .nil, fun _ => ⟨_, rfl⟩⟩
  | append_singleton before chunk ih =>
    rw [concat_iff, <- ih]
    simp only [foldlM_append, foldlM_cons, foldlM_nil, bind_pure]
    constructor
    · rintro ⟨final, ran⟩
      cases earlier : before.foldlM (processChunk lib jsonObject options) .start with
      | error failure =>
        rw [earlier] at ran
        cases ran
      | ok state =>
        rw [earlier] at ran
        refine ⟨⟨state, rfl⟩, ?_⟩
        apply ((Corresponds.of_run earlier).takes_iff chunk).mp
        exact ⟨final, ran⟩
    · rintro ⟨⟨state, earlier⟩, fits⟩
      rcases ((Corresponds.of_run earlier).takes_iff chunk).mpr fits with ⟨final, taken⟩
      refine ⟨final, ?_⟩
      rw [earlier]
      exact taken

end

lemma throughout_alternates_chunk (tokens : List (Token Text)) (chunk : Chunk) :
    Throughout Alternates (tokens ++ chunk.tokens) ↔
      Throughout Alternates tokens ∧ ∀ word, chunk.word = some word ->
        Alternates (tokens ++ replicate chunk.opened .opening) word.token := by
  have openingAnywhere : ∀ before, Alternates before (.opening : Token Text) := fun _ => trivial
  have closingAnywhere : ∀ before, Alternates before (.closing : Token Text) := fun _ => trivial
  unfold Chunk.tokens Chunk.front
  rw [<- append_assoc, throughout_parentheses closingAnywhere, <- append_assoc]
  cases chunk.word with
  | none =>
    rw [map_none, toList_none, append_nil, throughout_parentheses openingAnywhere]
    exact (and_iff_left fun _ impossible => by cases impossible).symm
  | some word =>
    rw [map_some, toList_some, concat_iff, throughout_parentheses openingAnywhere]
    simp only [Option.some.injEq, forall_eq']

lemma mem_tokens {chunk : Chunk} {content : Text} :
    Token.atom content ∈ chunk.tokens ↔ chunk.word = some (.atom content) := by
  unfold Chunk.tokens Chunk.front
  rcases chunk with ⟨opened, word, closed⟩
  rcases word with _ | op | other
  · simp
  · simp [Word.token]
  · simp [Word.token, eq_comm]

lemma evaluates_chunk (tokens : List (Token Text)) (chunk : Chunk) :
    Evaluates lib jsonObject options (tokens ++ chunk.tokens) ↔
      Evaluates lib jsonObject options tokens ∧ ∀ content,
        chunk.word = some (.atom content) ->
          ∃ value, singlePredicateResult lib jsonObject options content = .ok value := by
  unfold Evaluates
  simp only [mem_append, mem_tokens, or_imp, forall_and]

/-- What the evaluator asks of a chunk, one question after the other. -/
lemma fits_iff : Fits lib jsonObject options before chunk ↔
      (∀ word, chunk.word = some word ->
        Alternates (tokensIn before ++ replicate chunk.opened .opening) word.token) ∧
      Covered before chunk ∧ ∀ content, chunk.word = some (.atom content) ->
        ∃ value, singlePredicateResult lib jsonObject options content = .ok value := by
  unfold Fits Covered
  rcases chunk with ⟨opened, word, closed⟩
  rcases word with _ | op | content
  · simp
  · simp [Alternates, Word.token]
  · simp only [Option.some.injEq, forall_eq', Word.atom.injEq, Alternates, Word.token]
    rw [and_comm (b := _ <= _)]

lemma throughout_fits_iff : Throughout (Fits lib jsonObject options) chunks ↔
      Throughout Alternates (tokensIn chunks) ∧ Throughout Covered chunks ∧
        Evaluates lib jsonObject options (tokensIn chunks) := by
  induction chunks using reverseRecOn with
  | nil =>
    refine ⟨fun _ => ⟨.nil, .nil, ?_⟩, fun _ => .nil⟩
    exact nofun
  | append_singleton before chunk ih =>
    rw [concat_iff, concat_iff, tokensIn_concat, throughout_alternates_chunk,
      evaluates_chunk, fits_iff]
    tauto

/-- The evaluator has no objection to a predicate. -/
structure Checked (lib : NumericLibrary) (jsonObject : Json) (options : PredicateOptions) :
    Prop where
  present : options.predicate ≠ []
  alternates : Throughout Alternates (tokensOf options.predicate)
  even : openings (tokensOf options.predicate) = closings (tokensOf options.predicate)
  covered : Throughout Covered (chunksOf options.predicate)
  evaluates : Evaluates lib jsonObject options (tokensOf options.predicate)

/-- The groups of a predicate begin and end where they may, and no operand is missing at the
end. -/
structure Closed (predicate : Text) : Prop where
  groups : Throughout Groups (tokensOf predicate)
  complete : waiting (tokensOf predicate) = false

lemma processExpressions_eq (expressions : List Text) :
    processExpressions lib jsonObject options state expressions =
      (expressions.map readChunk).foldlM (processChunk lib jsonObject options) state := by
  unfold processExpressions
  rw [foldlM_map]
  congr 1
  funext state expr
  exact processExpression_eq lib jsonObject options state expr

lemma accepted_iff_checked :
    (∃ value, applyPredicateRule lib jsonObject options = .ok value) ↔
      Checked lib jsonObject options := by
  have run : (∃ final, (chunksOf options.predicate).foldlM
        (processChunk lib jsonObject options) .start = .ok final) ↔
      Throughout (Fits lib jsonObject options) (chunksOf options.predicate) := run_ok_iff _
  rw [throughout_fits_iff] at run
  unfold applyPredicateRule
  by_cases absent : options.predicate.isEmpty = true
  · rw [if_pos absent]
    constructor
    · rintro ⟨value, impossible⟩
      cases impossible
    · intro checked
      exact absurd (List.isEmpty_iff.mp absent) checked.present
  · rw [if_neg absent, processExpressions_eq]
    change (∃ value, ((chunksOf options.predicate).foldlM
      (processChunk lib jsonObject options) .start >>= _) = .ok value) ↔ _
    cases ran : (chunksOf options.predicate).foldlM (processChunk lib jsonObject options) .start with
    | error failure =>
      rw [ran] at run
      constructor
      · rintro ⟨value, impossible⟩
        cases impossible
      · intro checked
        rcases run.mpr ⟨checked.alternates, checked.covered, checked.evaluates⟩ with
          ⟨final, impossible⟩
        cases impossible
    | ok final =>
      have depth : final.parenDepth = openings (tokensOf options.predicate) -
          closings (tokensOf options.predicate) := (Corresponds.of_run ran).depth
      rw [ran] at run
      rcases run.mp ⟨final, rfl⟩ with ⟨alternates, covered, evaluates⟩
      change (∃ value, (if final.parenDepth ≠ 0 then mismatchedParenthesis options.predicate
        else pure final.isFilterSuccess) = .ok value) ↔ _
      constructor
      · rintro ⟨value, accepted⟩
        split at accepted
        next => cases accepted
        next even =>
          refine ⟨fun empty => absent (List.isEmpty_iff.mpr empty), alternates, ?_, covered,
            evaluates⟩
          omega
      · intro checked
        have even := checked.even
        refine ⟨final.isFilterSuccess, if_neg ?_⟩
        omega

lemma sentence_iff_closed (predicate : Text) :
    Sentence (tokensOf predicate) ↔ Throughout Alternates (tokensOf predicate) ∧
      openings (tokensOf predicate) = closings (tokensOf predicate) ∧ Closed predicate := by
  rw [sentence_iff]
  constructor
  · rintro ⟨proper, complete, even⟩
    exact ⟨proper.alternates, even, proper.groups, complete⟩
  · rintro ⟨alternates, even, closed⟩
    exact ⟨⟨alternates, closed.groups⟩, closed.complete, even⟩

lemma closings_le_openings {tokens : List (Token Text)} (groups : Throughout Groups tokens) :
    closings tokens <= openings tokens := by
  induction tokens using reverseRecOn with
  | nil => exact le_refl _
  | append_singleton before token ih =>
    rcases concat_iff.mp groups with ⟨groupsBefore, last⟩
    have balance := ih groupsBefore
    rw [closings_append, openings_append]
    cases token with
    | opening => exact Nat.add_le_add balance (Nat.zero_le _)
    | closing => exact Nat.succ_le_of_lt last.2
    | operator op => exact balance
    | atom content => exact balance

lemma attachedIn_le_closings : attachedIn chunks <= closings (tokensIn chunks) := by
  induction chunks using reverseRecOn with
  | nil => exact le_refl _
  | append_singleton before chunk ih =>
    have single : chunk.attached <= chunk.closed := by
      unfold Chunk.attached
      split
      · exact le_refl _
      · exact Nat.zero_le _
    rw [attachedIn_concat, tokensIn_concat, closings_append, closings_tokens]
    exact Nat.add_le_add ih single

/-- A sentence never ends more groups than have been saved. -/
lemma covered_of_groups {chunks : List Chunk} (groups : Throughout Groups (tokensIn chunks)) :
    Throughout Covered chunks := by
  intro before chunk after split content isAtom
  have parts : tokensIn chunks = (tokensIn before ++ chunk.tokens) ++ tokensIn after := by
    rw [split]
    simp [tokensIn]
  rw [parts] at groups
  have balance := closings_le_openings groups.left
  rw [closings_append, openings_append, closings_tokens, openings_tokens] at balance
  exact (Nat.add_le_add_right (attachedIn_le_closings before) _).trans balance

/-- A sentence whose atoms have values is accepted. What is accepted is such a sentence exactly if
it also begins and ends its groups where it may. -/
theorem accepts_sentences_iff : ∀ (lib : NumericLibrary) (jsonObject : Json)
    (options : PredicateOptions),
    (Sentence (tokensOf options.predicate) ->
        Evaluates lib jsonObject options (tokensOf options.predicate) ->
          ∃ value, applyPredicateRule lib jsonObject options = .ok value) ∧
      (((∃ value, applyPredicateRule lib jsonObject options = .ok value) ->
          Sentence (tokensOf options.predicate) ∧
            Evaluates lib jsonObject options (tokensOf options.predicate)) ↔
        (Checked lib jsonObject options -> Closed options.predicate)) := by
  intro lib jsonObject options
  rw [accepted_iff_checked, sentence_iff_closed]
  constructor
  · rintro ⟨alternates, even, closed⟩ evaluates
    refine ⟨?_, alternates, even, covered_of_groups closed.groups, evaluates⟩
    intro empty
    have complete := closed.complete
    rw [empty] at complete
    cases complete
  · constructor
    · intro only checked
      exact (only checked).1.2.2
    · intro closes checked
      exact ⟨⟨checked.alternates, checked.even, closes checked⟩, checked.evaluates⟩

end

/-- A connective at the end, an empty group, no connective, a closing parenthesis at the start. -/
theorem accepts_no_sentences :
    [text "A and", text "()", text "A (B)", text "A ) and ( B"].Forall fun predicate =>
      (∃ value, applyPredicateRule integerLibrary .null ⟨predicate, 0, 1⟩ = .ok value) ∧
        ¬ Sentence (tokensOf predicate) := by
  rw [List.forall_iff_forall_mem]
  intro predicate member
  simp only [List.mem_cons, List.not_mem_nil, or_false] at member
  rcases member with connective | empty | adjacent | reversed
  · subst connective
    refine ⟨⟨_, rfl⟩, fun sentence => ?_⟩
    have complete := (sentence_iff.mp sentence).2.1
    cases complete
  · subst empty
    refine ⟨⟨_, rfl⟩, fun sentence => ?_⟩
    have complete := (sentence_iff.mp sentence).2.1
    cases complete
  · subst adjacent
    refine ⟨⟨_, rfl⟩, fun sentence => ?_⟩
    have begins := (sentence_iff.mp sentence).1.groups [.atom (text "A")] .opening
      [.atom (text "B"), .closing] rfl
    cases begins
  · subst reversed
    refine ⟨⟨_, rfl⟩, fun sentence => ?_⟩
    have begun := (sentence_iff.mp sentence).1.groups [.atom (text "A")] .closing
      [.operator .and, .opening, .atom (text "B")] rfl
    exact absurd begun.2 (Nat.lt_irrefl 0)

end Ecclesia.Predicates
