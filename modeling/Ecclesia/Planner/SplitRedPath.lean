import Ecclesia.Library.Nesting
import Ecclesia.Planner.Builder
import Mathlib.Data.List.TakeWhile

namespace Ecclesia.Planner

open Absl Library List

/-!
# Splitting a RedPath

`SplitRedPath` cuts a RedPath at the slashes outside of brackets and matches every step with a
regular expression.  It refuses brackets that are nested or not balanced.  Of what it accepts
nothing is lost but slashes outside of brackets and brackets with nothing in them.
-/

variable {redpath : Text}

namespace Offsets

def substr (t : Text) (pos count : Nat) : Text :=
  (t.drop pos).take count

/-- The loop over the characters, from position `i` on. -/
def splitSteps (redpath : Text) : Nat -> Int -> Nat -> List Text -> Text -> StatusOr (List Text)
  | _, bracketDepth, stepStart, redpathSteps, [] =>
    if bracketDepth ≠ 0 then
      .error (.invalidArgument (text "Mismatched brackets in RedPath: " ++ redpath))
    else if stepStart < redpath.length then .ok (redpathSteps ++ [redpath.drop stepStart])
    else .ok redpathSteps
  | i, bracketDepth, stepStart, redpathSteps, c :: rest =>
    if c = '[' then
      if 0 < bracketDepth then
        .error (.invalidArgument (text "Nested brackets in RedPath: " ++ redpath))
      else splitSteps redpath (i + 1) (bracketDepth + 1) stepStart redpathSteps rest
    else if c = ']' then
      if bracketDepth - 1 < 0 then
        .error (.invalidArgument (text "Mismatched brackets in RedPath: " ++ redpath))
      else splitSteps redpath (i + 1) (bracketDepth - 1) stepStart redpathSteps rest
    else if c = '/' ∧ bracketDepth = 0 then
      splitSteps redpath (i + 1) bracketDepth (i + 1)
        (if stepStart < i then redpathSteps ++ [substr redpath stepStart (i - stepStart)]
          else redpathSteps) rest
    else splitSteps redpath (i + 1) bracketDepth stepStart redpathSteps rest

/-- `SplitRedPath`, with the offsets of the source. -/
def splitRedPath (redpath : Text) (type : ExpressionType) : StatusOr (List Expression) :=
  (splitSteps redpath 0 0 0 [] redpath).bind (stepExpressions type)

lemma substr_front {front : Text} {stepStart : Nat} (reached : stepStart <= front.length)
    (rest : Text) :
    substr (front ++ rest) stepStart (front.length - stepStart) = front.drop stepStart := by
  rw [substr, drop_append_of_le_length reached, <- length_drop, take_left]

/-- An offset before the position leaves a step that is not empty. -/
lemma pushStep_drop (redpathSteps : List Text) (front : Text) (stepStart : Nat) :
    (if stepStart < front.length then redpathSteps ++ [front.drop stepStart] else redpathSteps) =
      pushStep redpathSteps (front.drop stepStart) := by
  unfold pushStep
  by_cases present : stepStart < front.length
  · have some_ : (front.drop stepStart).isEmpty = false := by
      rw [isEmpty_eq_false_iff, ne_eq, drop_eq_nil_iff]
      omega
    rw [if_pos present, some_]
    rfl
  · rw [if_neg present, drop_eq_nil_of_le (Nat.le_of_not_lt present)]
    rfl

/-- The text between the offset and the position is the step so far. -/
lemma splitSteps_eq (rest : Text) :
    ∀ {front : Text} {bracketDepth stepStart : Nat} {redpathSteps : List Text},
      redpath = front ++ rest -> stepStart <= front.length ->
      splitSteps redpath front.length bracketDepth stepStart redpathSteps rest =
        Planner.splitSteps redpath bracketDepth redpathSteps (front.drop stepStart) rest := by
  induction rest with
  | nil =>
    intro front bracketDepth stepStart redpathSteps whole reached
    rw [append_nil] at whole
    rw [Planner.splitSteps, <- pushStep_drop, whole]
    cases bracketDepth with
    | zero =>
      change (if stepStart < front.length then _ else _) = Except.ok (if _ then _ else _)
      split <;> rfl
    | succ bracketDepth => rfl
  | cons c rest ih =>
    intro front bracketDepth stepStart redpathSteps whole reached
    have wholeNext : redpath = (front ++ [c]) ++ rest := by rw [whole, append_cons]
    have position : (front ++ [c]).length = front.length + 1 := length_append
    have goesOn (depth : Nat) : splitSteps redpath (front.length + 1) depth stepStart redpathSteps
        rest = Planner.splitSteps redpath depth redpathSteps (front.drop stepStart ++ [c]) rest := by
      rw [<- drop_append_of_le_length reached, <- position]
      exact ih wholeNext (by omega)
    rw [splitSteps, Planner.splitSteps]
    by_cases opens : c = '['
    · rw [if_pos opens, if_pos (beq_iff_eq.mpr opens)]
      by_cases nested : 0 < bracketDepth
      · rw [if_pos (by omega), if_pos nested]
      · rw [if_neg (by omega), if_neg nested]
        exact goesOn (bracketDepth + 1)
    · have opensNot : ¬ (c == '[') = true := fun same => opens (beq_iff_eq.mp same)
      rw [if_neg opens, if_neg opensNot]
      by_cases closes : c = ']'
      · rw [if_pos closes, if_pos (beq_iff_eq.mpr closes)]
        cases bracketDepth with
        | zero => rw [if_pos (by omega), if_pos rfl]
        | succ bracketDepth =>
          have less : ((bracketDepth + 1 : Nat) : Int) - 1 = bracketDepth := by omega
          rw [less]
          exact goesOn bracketDepth
      · have closesNot : ¬ (c == ']') = true := fun same => closes (beq_iff_eq.mp same)
        rw [if_neg closes, if_neg closesNot]
        by_cases cuts : c = '/' ∧ bracketDepth = 0
        · rcases cuts with ⟨rfl, rfl⟩
          have next := @ih (front ++ ['/']) 0 (front.length + 1)
            (pushStep redpathSteps (front.drop stepStart)) wholeNext (by omega)
          have fresh : (front ++ ['/']).drop (front.length + 1) = [] :=
            drop_eq_nil_of_le (Nat.le_of_eq position)
          rw [position, fresh, <- pushStep_drop] at next
          have isSlash : ('/' == '/' && (0 : Nat) == 0) = true := rfl
          have pushed : substr redpath stepStart (front.length - stepStart) = front.drop stepStart := by
            rw [whole, substr_front reached]
          rw [pushed, <- pushStep_drop]
          exact next
        · rw [if_neg (by simpa using cuts), if_neg (fun both => cuts (by simpa using both))]
          exact goesOn bracketDepth

lemma splitRedPath_eq (redpath : Text) (type : ExpressionType) :
    splitRedPath redpath type = Planner.splitRedPath redpath type := by
  have same := @splitSteps_eq redpath redpath [] 0 0 [] rfl (Nat.le_refl 0)
  rw [drop_nil] at same
  rw [Planner.splitRedPath, <- same]
  rfl

end Offsets

def redpathMarks : Delimiters Char where
  opening := '['
  closing := ']'
  separator := '/'
  closes := by decide
  apart := by decide

def presentPieces (pieces : List Text) : List Text :=
  pieces.filter fun piece => !piece.isEmpty

lemma pushStep_eq (redpathSteps : List Text) (step : Text) :
    pushStep redpathSteps step = redpathSteps ++ presentPieces [step] := by
  cases step with
  | nil => exact (append_nil redpathSteps).symm
  | cons c rest => rfl

lemma presentPieces_cons (piece : Text) (pieces : List Text) :
    presentPieces (piece :: pieces) = presentPieces [piece] ++ presentPieces pieces :=
  filter_append [piece] pieces

lemma change_plain {c : Char} (opens : c ≠ '[') (closes : c ≠ ']') : redpathMarks.change c = 0 := by
  have opensNot : c ≠ redpathMarks.opening := opens
  have closesNot : c ≠ redpathMarks.closing := closes
  rw [Delimiters.change, if_neg opensNot, if_neg closesNot]

/-- The loop finds the pieces that are not empty, and refuses what is not balanced. -/
lemma splitSteps_cases (rest : Text) :
    ∀ {bracketDepth : Nat} {redpathSteps : List Text} {step : Text}, bracketDepth <= 1 ->
      redpathMarks.BalancedFrom bracketDepth rest ∧
          splitSteps redpath bracketDepth redpathSteps step rest = .ok (redpathSteps ++
            presentPieces (redpathMarks.cutFrom bracketDepth step rest)) ∨
        ¬ redpathMarks.BalancedFrom bracketDepth rest ∧ ∃ status,
          splitSteps redpath bracketDepth redpathSteps step rest = .error status := by
  induction rest with
  | nil =>
    intro bracketDepth redpathSteps step _
    rw [splitSteps, Delimiters.balancedFrom_nil, pushStep_eq]
    cases bracketDepth with
    | zero => exact .inl ⟨rfl, rfl⟩
    | succ bracketDepth => exact .inr ⟨by omega, _, rfl⟩
  | cons c rest ih =>
    intro bracketDepth redpathSteps step small
    have edge : (bracketDepth : Int) = 0 ∨ (bracketDepth : Int) = 1 := by omega
    rw [splitSteps, Delimiters.balancedFrom_cons, and_iff_right edge, Delimiters.cutFrom]
    by_cases opens : c = '['
    · subst opens
      have goesOn : ¬ ('[' = redpathMarks.separator ∧ (bracketDepth : Int) = 0) :=
        fun both => absurd both.1 (by decide)
      have isChange : redpathMarks.change '[' = 1 := rfl
      rw [if_pos (beq_self_eq_true '['), if_neg goesOn, isChange]
      by_cases nested : 0 < bracketDepth
      · rw [if_pos nested]
        refine .inr ⟨fun balanced => ?_, _, rfl⟩
        have start := balanced.atStart
        omega
      · rw [if_neg nested]
        have outside : bracketDepth = 0 := by omega
        subst outside
        exact ih (Nat.le_refl 1)
    · have opensNot : ¬ (c == '[') = true := fun same => opens (beq_iff_eq.mp same)
      rw [if_neg opensNot]
      by_cases closes : c = ']'
      · subst closes
        have goesOn : ¬ (']' = redpathMarks.separator ∧ (bracketDepth : Int) = 0) :=
          fun both => absurd both.1 (by decide)
        have isChange : redpathMarks.change ']' = -1 := rfl
        rw [if_pos (beq_self_eq_true ']'), if_neg goesOn, isChange]
        cases bracketDepth with
        | zero =>
          refine .inr ⟨fun balanced => ?_, _, rfl⟩
          have start := balanced.atStart
          omega
        | succ bracketDepth =>
          have less : ((bracketDepth + 1 : Nat) : Int) + -1 = bracketDepth := by omega
          rw [less]
          exact ih (by omega)
      · have closesNot : ¬ (c == ']') = true := fun same => closes (beq_iff_eq.mp same)
        rw [if_neg closesNot, change_plain opens closes]
        by_cases cuts : c = '/' ∧ bracketDepth = 0
        · rcases cuts with ⟨rfl, rfl⟩
          have isSlash : ('/' == '/' && (0 : Nat) == 0) = true := rfl
          have outside : '/' = redpathMarks.separator ∧ ((0 : Nat) : Int) = 0 := ⟨rfl, rfl⟩
          rw [if_pos outside, pushStep_eq, presentPieces_cons step (redpathMarks.cutFrom 0 [] rest),
            <- append_assoc]
          exact ih (Nat.zero_le 1)
        · have isPlain : ¬ (c == '/' && bracketDepth == 0) = true := by simpa using cuts
          have goesOn : ¬ (c = redpathMarks.separator ∧ (bracketDepth : Int) = 0) :=
            fun both => cuts ⟨both.1, Int.ofNat_eq_zero.mp both.2⟩
          rw [if_neg isPlain, if_neg goesOn]
          exact ih small

/-- `NodeName[Predicate]`, where the name, the predicate or both may be missing. -/
def LocationStep (step nodeName predicate : Text) : Prop :=
  isNodeName isTrieNameCharacter nodeName = true ∧
    (step = nodeName ∧ predicate = [] ∨
      '\n' ∉ predicate ∧ step = nodeName ++ '[' :: (predicate ++ [']']))

def IsLocationStep (step : Text) : Prop :=
  ∃ nodeName predicate, LocationStep step nodeName predicate

lemma notMem_nodeName {nodeName : Text} (valid : isNodeName isTrieNameCharacter nodeName = true)
    {c : Char} (notFirst : (asciiIsAlpha c || c == '#' || c == '@') = false)
    (notLater : isTrieNameCharacter c = false) : c ∉ nodeName := by
  intro member
  match nodeName, valid with
  | first :: second :: others, valid =>
    rw [isNodeName, Bool.and_eq_true] at valid
    rcases mem_cons.mp member with rfl | later
    · rw [notFirst] at valid
      exact absurd valid.1 Bool.false_ne_true
    · have isName := all_eq_true.mp valid.2 c later
      rw [notLater] at isName
      cases isName

variable {step nodeName predicate : Text}

lemma locationStep_of_match
    (matched : matchLocationStep isTrieNameCharacter step = some (nodeName, predicate)) :
    LocationStep step nodeName predicate := by
  have whole := takeWhile_append_dropWhile (p := (· != '[')) (l := step)
  unfold matchLocationStep at matched
  dsimp only at matched
  split at matched
  · rename_i valid
    split at matched
    · rename_i noBracket
      cases matched
      rw [noBracket, append_nil] at whole
      exact ⟨valid, .inl ⟨whole.symm, rfl⟩⟩
    · rename_i bracket inside fromBracket
      split at matched
      · rename_i closed
        cases matched
        rw [Bool.and_eq_true, decide_eq_true_eq] at closed
        have isBracket : bracket = '[' := by
          have some_ : step.dropWhile (· != '[') ≠ [] := by
            rw [fromBracket]
            exact cons_ne_nil _ _
          have stops := head_dropWhile_not (· != '[') some_
          simpa [fromBracket] using stops
        have inside_ : inside.dropLast ++ [']'] = inside := dropLast_append_getLast? ']' closed.1
        rw [fromBracket, isBracket] at whole
        refine ⟨valid, .inr ⟨by simpa using closed.2, ?_⟩⟩
        rw [inside_]
        exact whole.symm
      · cases matched
  · cases matched

lemma matchLocationStep_of (located : LocationStep step nodeName predicate) :
    matchLocationStep isTrieNameCharacter step = some (nodeName, predicate) := by
  rcases located with ⟨valid, located⟩
  have isName : ∀ c ∈ nodeName, (c != '[') = true := by
    intro c member
    rw [bne_iff_ne]
    rintro rfl
    exact notMem_nodeName valid (by decide) (by decide) member
  unfold matchLocationStep
  rcases located with ⟨rfl, rfl⟩ | ⟨line, rfl⟩
  · rw [takeWhile_eq_self_iff.mpr isName, dropWhile_eq_nil_iff.mpr isName, if_pos valid]
  · have taken : (nodeName ++ '[' :: (predicate ++ [']'])).takeWhile (· != '[') = nodeName := by
      rw [takeWhile_append_of_pos isName]
      exact append_nil nodeName
    have dropped : (nodeName ++ '[' :: (predicate ++ [']'])).dropWhile (· != '[') =
        '[' :: (predicate ++ [']']) := by
      rw [dropWhile_append_of_pos isName]
      rfl
    rw [taken, dropped, if_pos valid]
    simp [line]

/-- The expressions of a step. -/
def locatedExpressions (type : ExpressionType) (step : Text) : List Expression :=
  match matchLocationStep isTrieNameCharacter step with
  | some (nodeName, predicate) =>
    ⟨type, nodeName⟩ :: (if predicate.isEmpty then [] else [⟨.predicate, predicate⟩])
  | none => []

lemma stepExpressions_ok_iff {type : ExpressionType} (steps : List Text) :
    ∀ {expressions : List Expression}, stepExpressions type steps = .ok expressions ↔
      (∀ step ∈ steps, IsLocationStep step) ∧ expressions = steps.flatMap (locatedExpressions type) := by
  induction steps with
  | nil =>
    intro expressions
    rw [stepExpressions, Except.ok.injEq, and_iff_right (forall_mem_nil _)]
    exact eq_comm
  | cons step steps ih =>
    intro expressions
    rw [stepExpressions, forall_mem_cons, flatMap_cons, locatedExpressions]
    cases matched : matchLocationStep isTrieNameCharacter step with
    | none =>
      constructor
      · intro refused
        cases refused
      · rintro ⟨⟨⟨nodeName, predicate, located⟩, -⟩, -⟩
        rw [matchLocationStep_of located] at matched
        cases matched
    | some found =>
      rcases found with ⟨nodeName, predicate⟩
      have located : IsLocationStep step := ⟨_, _, locationStep_of_match matched⟩
      rw [and_iff_right located]
      cases ran : stepExpressions type steps with
      | error status =>
        constructor
        · intro refused
          cases refused
        · rintro ⟨all, -⟩
          have fine := ih.mpr ⟨all, rfl⟩
          rw [ran] at fine
          cases fine
      | ok later =>
        rcases ih.mp ran with ⟨all, rfl⟩
        rw [and_iff_right all]
        change Except.ok _ = Except.ok _ ↔ _
        rw [Except.ok.injEq]
        cases predicate with
        | nil => exact eq_comm
        | cons c others => exact eq_comm

/-- Every node name behind a slash, and every predicate in brackets. -/
def writeExpressions (expressions : List Expression) : Text :=
  expressions.flatMap fun expression =>
    if expression.type = .predicate then '[' :: (expression.expression ++ [']'])
    else '/' :: expression.expression

def dropEmptyBrackets : Text -> Text
  | '[' :: ']' :: rest => dropEmptyBrackets rest
  | c :: rest => c :: dropEmptyBrackets rest
  | [] => []

/-- A RedPath with one slash before each piece, but no piece that is empty, and without brackets
with nothing in them. -/
def tidy (redpath : Text) : Text :=
  (presentPieces ((redpathMarks.cut redpath).map dropEmptyBrackets)).flatMap fun piece =>
    '/' :: piece

/-- What is between two brackets stays in one predicate, if there is a slash in it, and nothing
else has a slash. -/
structure KeepsSlashes (redpath : Text) (expressions : List Expression) : Prop where
  inside : ∀ before group after, redpath = before ++ '[' :: (group ++ ']' :: after) ->
    '[' ∉ group -> ']' ∉ group -> '/' ∈ group ->
    ∃ expression ∈ expressions, expression.type = .predicate ∧ group <:+: expression.expression
  names : ∀ expression ∈ expressions, expression.type ≠ .predicate -> '/' ∉ expression.expression

/-- A step as it is written, without brackets with nothing in them. -/
def keptStep (step : Text) : Text :=
  match matchLocationStep isTrieNameCharacter step with
  | some (nodeName, predicate) =>
    nodeName ++ if predicate.isEmpty then [] else '[' :: (predicate ++ [']'])
  | none => []

section

variable {type : ExpressionType}

lemma writeExpressions_located (named : type ≠ .predicate) (isStep : IsLocationStep step) :
    writeExpressions (locatedExpressions type step) = '/' :: keptStep step := by
  rcases isStep with ⟨nodeName, predicate, located⟩
  rw [locatedExpressions, keptStep, matchLocationStep_of located, writeExpressions]
  dsimp only
  rw [flatMap_cons, if_neg named]
  cases predicate with
  | nil => rfl
  | cons c others =>
    change '/' :: nodeName ++ ('[' :: (c :: others ++ [']']) ++ []) = _
    rw [append_nil]
    rfl

lemma writeExpressions_steps (named : type ≠ .predicate) {steps : List Text}
    (isStep : ∀ step ∈ steps, IsLocationStep step) :
    writeExpressions (steps.flatMap (locatedExpressions type)) =
      (steps.map keptStep).flatMap fun piece => '/' :: piece := by
  induction steps with
  | nil => rfl
  | cons step steps ih =>
    rcases forall_mem_cons.mp isStep with ⟨here, later⟩
    have first := writeExpressions_located named here
    have behind := ih later
    rw [writeExpressions] at first behind ⊢
    rw [flatMap_cons, flatMap_append, first, behind, map_cons, flatMap_cons]

lemma dropEmptyBrackets_name {front : Text} (noBracket : '[' ∉ front) (rest : Text) :
    dropEmptyBrackets (front ++ rest) = front ++ dropEmptyBrackets rest := by
  induction front with
  | nil => rfl
  | cons c front ih =>
    rw [mem_cons, not_or] at noBracket
    rw [cons_append, dropEmptyBrackets, ih noBracket.2, cons_append]
    rintro others rfl
    exact absurd rfl noBracket.1

lemma keptStep_cases (isStep : IsLocationStep step) :
    keptStep step = step ∨
      '[' ∉ keptStep step ∧ ']' ∉ keptStep step ∧ '/' ∉ keptStep step ∧
        step = keptStep step ++ text "[]" := by
  rcases isStep with ⟨nodeName, predicate, located⟩
  rw [keptStep, matchLocationStep_of located]
  dsimp only
  rcases located with ⟨valid, ⟨rfl, rfl⟩ | ⟨_, rfl⟩⟩
  · exact .inl (append_nil step)
  · cases predicate with
    | nil =>
      refine .inr ?_
      have same : nodeName ++ (if ([] : Text).isEmpty then [] else '[' :: ([] ++ [']'])) =
          nodeName := append_nil nodeName
      rw [same]
      exact ⟨notMem_nodeName valid (by decide) (by decide),
        notMem_nodeName valid (by decide) (by decide),
        notMem_nodeName valid (by decide) (by decide), rfl⟩
    | cons c others => exact .inl rfl

lemma dropEmptyBrackets_keptStep (isStep : IsLocationStep step) :
    dropEmptyBrackets (keptStep step) = dropEmptyBrackets step := by
  rcases keptStep_cases isStep with same | ⟨noBracket, _, _, split⟩
  · rw [same]
  · generalize keptStep step = kept at noBracket split
    rw [split, dropEmptyBrackets_name noBracket]
    have whole := dropEmptyBrackets_name noBracket []
    rwa [append_nil] at whole

lemma keptStep_whole (isStep : IsLocationStep step)
    (whole : redpathMarks.UncutFrom 0 step ∧ redpathMarks.depth step = 0) :
    redpathMarks.UncutFrom 0 (keptStep step) ∧ redpathMarks.depth (keptStep step) = 0 := by
  rcases keptStep_cases isStep with same | ⟨noOpening, noClosing, noSlash, _⟩
  · rwa [same]
  · exact ⟨Delimiters.uncutFrom_of_notMem noSlash, Delimiters.depth_of_notMem noOpening noClosing⟩

/-- Pieces that are empty from the start make no difference. -/
lemma presentPieces_map_present (pieces : List Text) :
    presentPieces ((presentPieces pieces).map dropEmptyBrackets) =
      presentPieces (pieces.map dropEmptyBrackets) := by
  induction pieces with
  | nil => rfl
  | cons piece pieces ih =>
    cases piece with
    | nil => exact ih
    | cons c others =>
      change presentPieces (dropEmptyBrackets (c :: others) ::
        (presentPieces pieces).map dropEmptyBrackets) = _
      rw [presentPieces_cons, ih, <- presentPieces_cons]
      rfl

/-- The written steps of a balanced text are the text itself, up to what `tidy` removes. -/
lemma tidy_writeExpressions (named : type ≠ .predicate) (balanced : redpathMarks.Balanced redpath)
    (isStep : ∀ step ∈ presentPieces (redpathMarks.cut redpath), IsLocationStep step) :
    tidy (writeExpressions ((presentPieces (redpathMarks.cut redpath)).flatMap
      (locatedExpressions type))) = tidy redpath := by
  have settled := balanced.settled
  rw [Int.zero_add] at settled
  have whole := (Delimiters.pieces_cut redpath).whole settled
  have kept : ∀ piece ∈ (presentPieces (redpathMarks.cut redpath)).map keptStep,
      redpathMarks.UncutFrom 0 piece ∧ redpathMarks.depth piece = 0 := by
    intro piece member
    rcases mem_map.mp member with ⟨step, isPiece, rfl⟩
    exact keptStep_whole (isStep step isPiece) (whole step (mem_filter.mp isPiece).1)
  have found : redpathMarks.cut (((presentPieces (redpathMarks.cut redpath)).map keptStep).flatMap
      fun piece => '/' :: piece) =
      [] :: (presentPieces (redpathMarks.cut redpath)).map keptStep :=
    Delimiters.cut_flatMap kept
  have same : ((presentPieces (redpathMarks.cut redpath)).map keptStep).map dropEmptyBrackets =
      (presentPieces (redpathMarks.cut redpath)).map dropEmptyBrackets := by
    rw [map_map]
    exact map_congr_left fun step member => dropEmptyBrackets_keptStep (isStep step member)
  have first (pieces : List Text) : presentPieces (([] :: pieces).map dropEmptyBrackets) =
      presentPieces (pieces.map dropEmptyBrackets) := rfl
  rw [writeExpressions_steps named isStep, tidy, tidy, found, first, same,
    presentPieces_map_present]

lemma infix_of_concat {whole before inside after : Text} {last close : Char}
    (same : whole ++ [last] = before ++ (inside ++ close :: after)) : inside <:+: whole := by
  rcases eq_nil_or_concat (close :: after) with impossible | ⟨others, final, concat⟩
  · cases impossible
  · rw [concat, concat_eq_append, <- append_assoc, <- append_assoc] at same
    exact ⟨before, others, (append_inj' same rfl).1.symm⟩

lemma infix_predicate (located : LocationStep step nodeName predicate) {group : Text}
    (inStep : '[' :: (group ++ [']']) <:+: step) : group <:+: predicate := by
  rcases located with ⟨valid, located⟩
  have noBracket : '[' ∉ nodeName := notMem_nodeName valid (by decide) (by decide)
  rcases inStep with ⟨before, after, split⟩
  rcases located with ⟨rfl, -⟩ | ⟨-, rfl⟩
  · exact absurd (split ▸ by simp) noBracket
  · have whole : before ++ '[' :: (group ++ ']' :: after) =
        nodeName ++ '[' :: (predicate ++ [']']) := by
      rw [<- split]
      simp
    rcases append_eq_append_iff.mp whole with ⟨more, begins, behind⟩ | ⟨more, _, behind⟩
    · cases more with
      | nil => exact @infix_of_concat _ [] _ _ _ _ (cons.inj behind).2.symm
      | cons c more =>
        have isBracket : '[' = c := (cons.inj behind).1
        exact absurd (by rw [begins, isBracket]; simp) noBracket
    · cases more with
      | nil => exact @infix_of_concat _ [] _ _ _ _ (cons.inj behind).2
      | cons c more =>
        have inner : predicate ++ [']'] = (more ++ ['[']) ++ (group ++ ']' :: after) := by
          rw [append_assoc]
          exact (cons.inj behind).2
        exact infix_of_concat inner

lemma keepsSlashes_steps (balanced : redpathMarks.Balanced redpath)
    (isStep : ∀ step ∈ presentPieces (redpathMarks.cut redpath), IsLocationStep step) :
    KeepsSlashes redpath ((presentPieces (redpathMarks.cut redpath)).flatMap
      (locatedExpressions type)) where
  inside before group after split noOpening noClosing slash := by
    have outside : redpathMarks.depth before = 0 :=
      Delimiters.BalancedFrom.outside (split ▸ balanced)
    have isGroup : redpath = before ++ ('[' :: (group ++ [']']) ++ after) := by
      rw [split]
      simp
    have uncut : redpathMarks.UncutFrom (redpathMarks.depth before) ('[' :: (group ++ [']'])) := by
      rw [outside]
      exact Delimiters.uncutFrom_group noOpening noClosing
    rcases (Delimiters.pieces_cut redpath).infix_piece isGroup uncut with ⟨step, isPiece, inStep⟩
    have present : step ≠ [] := by
      rintro rfl
      cases infix_nil.mp inStep
    have member : step ∈ presentPieces (redpathMarks.cut redpath) :=
      mem_filter.mpr ⟨isPiece, by simpa using present⟩
    rcases isStep step member with ⟨nodeName, predicate, located⟩
    have inPredicate := infix_predicate located inStep
    have some_ : predicate.isEmpty = false := by
      rw [isEmpty_eq_false_iff]
      rintro rfl
      rw [infix_nil.mp inPredicate] at slash
      cases slash
    refine ⟨⟨.predicate, predicate⟩, mem_flatMap.mpr ⟨step, member, ?_⟩, rfl, inPredicate⟩
    rw [locatedExpressions, matchLocationStep_of located]
    dsimp only
    rw [some_]
    exact .tail _ (.head _)
  names expression member notPredicate := by
    rcases mem_flatMap.mp member with ⟨step, isPiece, ofStep⟩
    rcases isStep step isPiece with ⟨nodeName, predicate, located⟩
    rw [locatedExpressions, matchLocationStep_of located] at ofStep
    rcases mem_cons.mp ofStep with rfl | ofPredicate
    · exact notMem_nodeName located.1 (by decide) (by decide)
    · split at ofPredicate
      · cases ofPredicate
      · rw [mem_singleton.mp ofPredicate] at notPredicate
        exact absurd rfl notPredicate

end

/-- For every text: `SplitRedPath` accepts it exactly if its brackets are balanced and not nested
and every piece between the slashes outside of brackets that is not empty is a location step.  What
it finds, written again, is the text up to leading, trailing and repeated slashes and brackets with
nothing in them, and every slash in brackets is in one predicate. -/
theorem splitRedPath_splits : ∀ (redpath : Text) (type : ExpressionType),
    ((∃ expressions, Offsets.splitRedPath redpath type = .ok expressions) ↔
      redpathMarks.Balanced redpath ∧
        ∀ piece ∈ redpathMarks.cut redpath, piece ≠ [] -> IsLocationStep piece) ∧
    ∀ expressions, Offsets.splitRedPath redpath type = .ok expressions ->
      (type ≠ .predicate -> tidy (writeExpressions expressions) = tidy redpath) ∧
        KeepsSlashes redpath expressions := by
  intro redpath type
  have present : (∀ piece ∈ redpathMarks.cut redpath, piece ≠ [] -> IsLocationStep piece) ↔
      ∀ step ∈ presentPieces (redpathMarks.cut redpath), IsLocationStep step := by
    simp [presentPieces]
  rw [Offsets.splitRedPath_eq, splitRedPath, present]
  rcases @splitSteps_cases redpath redpath 0 [] [] (Nat.zero_le 1) with
    ⟨balanced, ran⟩ | ⟨unbalanced, status, failed⟩
  · rw [ran]
    change ((∃ expressions, stepExpressions type (presentPieces (redpathMarks.cut redpath)) =
      .ok expressions) ↔ _) ∧ ∀ expressions,
        stepExpressions type (presentPieces (redpathMarks.cut redpath)) = .ok expressions -> _
    constructor
    · constructor
      · rintro ⟨expressions, accepted⟩
        exact ⟨balanced, ((stepExpressions_ok_iff _).mp accepted).1⟩
      · rintro ⟨-, isStep⟩
        exact ⟨_, (stepExpressions_ok_iff _).mpr ⟨isStep, rfl⟩⟩
    · intro expressions accepted
      rcases (stepExpressions_ok_iff _).mp accepted with ⟨isStep, rfl⟩
      exact ⟨fun named => tidy_writeExpressions named balanced isStep,
        keepsSlashes_steps balanced isStep⟩
  · rw [failed]
    constructor
    · constructor
      · rintro ⟨expressions, impossible⟩
        cases impossible
      · rintro ⟨balanced, -⟩
        exact absurd balanced unbalanced
    · intro expressions impossible
      cases impossible

end Ecclesia.Planner
