import Ecclesia.Planner.SplitRedPath
import Ecclesia.QueryValidator.Tests

namespace Ecclesia.QueryValidator

open Absl List
open Planner (splitRedPath splitSteps stepExpressions matchLocationStep isTrieNameCharacter
  isNodeName redpathMarks presentPieces presentPieces_cons splitSteps_cases notMem_nodeName
  locationStep_of_match)

/-!
# Predicates that are tested and predicates that are executed

The test cuts a RedPath at every slash and each piece at its first brackets.  The engine cuts it
at the slashes that are not in brackets, and takes everything between the first bracket and the
last one of a step as one predicate.  The two agree on a step whose predicate has neither a slash
nor a closing bracket in it.
-/

/-- A text between its logical operators, with the clause so far. -/
def splitClauses : Text -> Text -> List Text
  | clause, [] => [clause]
  | clause, ' ' :: 'a' :: 'n' :: 'd' :: ' ' :: rest => clause :: splitClauses [] rest
  | clause, ' ' :: 'o' :: 'r' :: ' ' :: rest => clause :: splitClauses [] rest
  | clause, c :: rest => splitClauses (clause ++ [c]) rest

def clauses (predicate : Text) : List Text :=
  splitClauses [] predicate

/-- Some of the clauses do not match. -/
def Fails (clauses : List Text) : Prop :=
  ∃ clause ∈ clauses, matchesPredicateRegex clause = false

instance (clauses : List Text) : Decidable (Fails clauses) :=
  inferInstanceAs (Decidable (∃ clause ∈ clauses, _))

/-- A subquery gets an issue exactly if some clause of some predicate that the engine executes
does not match. -/
def TestsExecuted (path : Text) (subquery : Subquery)
    (expressions : List Planner.Expression) : Prop :=
  disallowedPredicates path subquery ≠ [] ↔
    ∃ expression ∈ expressions, expression.type = .predicate ∧ Fails (clauses expression.expression)

/-- The steps of a RedPath, as the engine cuts it. -/
def stepsOf (redpath : Text) : List Text :=
  match splitSteps redpath 0 [] [] redpath with
  | .ok redpathSteps => redpathSteps
  | .error _ => []

/-- The predicate of a step, which is empty if there is none. -/
def predicateOf (step : Text) : Text :=
  match matchLocationStep isTrieNameCharacter step with
  | some (_, predicate) => predicate
  | none => []

/-- The pieces of a text, as the test cuts it. -/
def piecesOf (t : Text) : List Text :=
  (strSplit '/' t).filter fun piece => !piece.isEmpty

/-- The test finds a clause that does not match. -/
def TestFails (step : Text) : Prop :=
  ∃ piece ∈ piecesOf step, Fails (parsePredicate piece)

/-- The engine executes a clause that does not match. -/
def EngineFails (step : Text) : Prop :=
  predicateOf step ≠ [] ∧ Fails (clauses (predicateOf step))

/-- There is no bracket, or a predicate without a slash and a closing bracket in it. -/
def IsPlain (step : Text) : Prop :=
  '[' ∉ step ∨ predicateOf step ≠ [] ∧ '/' ∉ predicateOf step ∧ ']' ∉ predicateOf step

instance (step : Text) : Decidable (IsPlain step) :=
  inferInstanceAs (Decidable (_ ∨ _))

lemma piecesOf_slash (before after : Text) :
    piecesOf (before ++ '/' :: after) = piecesOf before ++ piecesOf after := by
  rw [piecesOf, strSplit, splitOn_append_cons_self, filter_append]
  rfl

/-- A text and its steps have the same pieces, since steps are cut at slashes. -/
lemma flatMap_piecesOf {t : Text} {steps : List Text}
    (isCut : redpathMarks.Pieces t steps) : steps.flatMap piecesOf = piecesOf t := by
  induction isCut with
  | last _ => rw [flatMap_singleton]
  | @cons step rest steps _ _ _ ih =>
    rw [flatMap_cons, ih]
    exact (piecesOf_slash step rest).symm

lemma flatMap_piecesOf_present (steps : List Text) :
    (presentPieces steps).flatMap piecesOf = steps.flatMap piecesOf := by
  induction steps with
  | nil => rfl
  | cons step steps ih =>
    rw [presentPieces_cons, flatMap_append, ih]
    cases step with
    | nil => rfl
    | cons c rest =>
      change [c :: rest].flatMap piecesOf ++ _ = _
      rw [flatMap_singleton, flatMap_cons]

section

variable {redpath : Text} {expressions : List Planner.Expression}

section

variable (accepted : splitRedPath redpath .nodeName = .ok expressions)

include accepted

lemma stepsOf_of_split :
    splitSteps redpath 0 [] [] redpath = .ok (stepsOf redpath) ∧
      stepExpressions .nodeName (stepsOf redpath) = .ok expressions := by
  unfold splitRedPath at accepted
  unfold stepsOf
  cases split : splitSteps redpath 0 [] [] redpath with
  | error status =>
    rw [split] at accepted
    cases accepted
  | ok redpathSteps =>
    rw [split] at accepted
    exact ⟨rfl, accepted⟩

lemma stepsOf_redpath : stepsOf redpath = presentPieces (redpathMarks.cut redpath) := by
  have split := (stepsOf_of_split accepted).1
  rcases splitSteps_cases redpath (Nat.zero_le 1) with ⟨-, ran⟩ | ⟨-, status, failed⟩
  · rw [ran] at split
    exact (Except.ok.inj split).symm
  · rw [failed] at split
    cases split

lemma piecesOf_redpath :
    piecesOf redpath = (stepsOf redpath).flatMap piecesOf ∧
      ∀ step ∈ stepsOf redpath, step ≠ [] := by
  rw [stepsOf_redpath accepted]
  constructor
  · rw [flatMap_piecesOf_present, flatMap_piecesOf (Library.Delimiters.pieces_cut redpath)]
  · intro step member
    simpa using (mem_filter.mp member).2

end

lemma stepExpressions_predicates (steps : List Text) : ∀ {expressions : List Planner.Expression},
    stepExpressions .nodeName steps = .ok expressions ->
      (∀ step ∈ steps,
        ∃ nodeName, matchLocationStep isTrieNameCharacter step =
          some (nodeName, predicateOf step)) ∧
      ((∃ expression ∈ expressions, expression.type = .predicate ∧
          Fails (clauses expression.expression)) ↔
        ∃ step ∈ steps, EngineFails step) := by
  induction steps with
  | nil =>
    intro expressions split
    cases split
    exact ⟨fun _ impossible => (nomatch impossible), by simp⟩
  | cons step rest ih =>
    intro expressions split
    rw [stepExpressions] at split
    cases matched : matchLocationStep isTrieNameCharacter step with
    | none =>
      rw [matched] at split
      cases split
    | some found =>
      rcases found with ⟨nodeName, predicate⟩
      have isPredicate : predicateOf step = predicate := by
        rw [predicateOf, matched]
      rw [matched] at split
      cases later : stepExpressions .nodeName rest with
      | error status =>
        rw [later] at split
        cases split
      | ok more =>
        rw [later] at split
        rcases ih later with ⟨locations, fails⟩
        constructor
        · intro other member
          rcases mem_cons.mp member with rfl | inside
          · exact ⟨nodeName, by rw [matched, isPredicate]⟩
          · exact locations other inside
        · have all := Except.ok.inj split
          rw [<- all, exists_mem_cons_iff, exists_mem_cons_iff, <- fails]
          unfold EngineFails
          rw [isPredicate]
          cases predicate with
          | nil => simp
          | cons c others => simp

lemma disallowedPredicates_ne_nil_iff {path : Text} {subquery : Subquery} :
    disallowedPredicates path subquery ≠ [] ↔
      ∃ piece ∈ piecesOf (redpathOf subquery), Fails (parsePredicate piece) := by
  constructor
  · intro some_
    rcases exists_mem_of_ne_nil _ some_ with ⟨issue, isIssue⟩
    rcases mem_flatMap.mp isIssue with ⟨piece, isPiece, ofPiece⟩
    rcases mem_map.mp ofPiece with ⟨clause, isClause, _⟩
    rcases mem_filter.mp isClause with ⟨member, unmatched⟩
    exact ⟨piece, isPiece, clause, member, by simpa using unmatched⟩
  · rintro ⟨piece, isPiece, clause, member, unmatched⟩
    apply ne_nil_of_mem
    apply mem_flatMap.mpr
    refine ⟨piece, isPiece, mem_map.mpr ⟨clause, mem_filter.mpr ⟨member, ?_⟩, rfl⟩⟩
    rw [unmatched]
    rfl

end

lemma splitAtSlashes_replace {t : Text} (noSlash : '/' ∉ t) : ∀ piece : Text,
    splitAtSlashes piece (replaceLogicalOperators t) = splitClauses piece t := by
  fun_induction replaceLogicalOperators t with
  | case1 => exact fun _ => rfl
  | case2 rest ih =>
    intro piece
    have later := ih (fun member => noSlash (by simp [member])) []
    rw [splitAtSlashes, splitClauses, later]
  | case3 rest ih =>
    intro piece
    have later := ih (fun member => noSlash (by simp [member])) []
    rw [splitAtSlashes, splitClauses, later]
  | case4 c rest notAnd notOr ih =>
    intro piece
    have notSlash : c ≠ '/' := by
      rintro rfl
      exact noSlash (.head _)
    rw [splitAtSlashes, splitClauses, ih fun member => noSlash (mem_cons_of_mem c member)]
    · exact notAnd
    · exact notOr
    · rintro rest' rfl
      exact absurd rfl notSlash

lemma piecesOf_plain {t : Text} (noSlash : '/' ∉ t) (nonempty : t ≠ []) : piecesOf t = [t] := by
  rw [piecesOf, strSplit, splitOn_eq_singleton noSlash]
  cases t with
  | nil => exact absurd rfl nonempty
  | cons c rest => rfl

lemma not_fails_nodeName {nodeName : Text} (valid : isNodeName isTrieNameCharacter nodeName = true)
    (nonempty : nodeName ≠ []) : ¬ Fails (clauses nodeName) := by
  have noBlank : ∀ (t clause : Text), ' ' ∉ t -> splitClauses clause t = [clause ++ t] := by
    intro t
    induction t with
    | nil =>
      intro clause _
      rw [append_nil]
      rfl
    | cons c rest ih =>
      intro clause absent
      rw [splitClauses, ih _ fun member => absent (mem_cons_of_mem c member)]
      · rw [append_assoc]
        rfl
      · rintro rest' rfl
        exact absurd (.head _) absent
      · rintro rest' rfl
        exact absurd (.head _) absent
  have allName : ∀ c ∈ nodeName, isPredicateNameCharacter c = true := by
    intro c member
    by_contra special
    rw [isPredicateNameCharacter] at special
    simp only [Bool.and_eq_true, bne_iff_ne, not_and_or, not_not] at special
    rcases special with ((rfl | rfl) | rfl) | rfl
    · exact notMem_nodeName valid (by decide) (by decide) member
    · exact notMem_nodeName valid (by decide) (by decide) member
    · exact notMem_nodeName valid (by decide) (by decide) member
    · exact notMem_nodeName valid (by decide) (by decide) member
  rintro ⟨clause, member, unmatched⟩
  rw [clauses, noBlank _ _ (notMem_nodeName valid (by decide) (by decide)), nil_append] at member
  rw [mem_singleton.mp member, matchesPredicateRegex] at unmatched
  have taken : nodeName.takeWhile isPredicateNameCharacter = nodeName :=
    takeWhile_eq_self_iff.mpr allName
  have dropped : nodeName.dropWhile isPredicateNameCharacter = [] :=
    dropWhile_eq_nil_iff.mpr allName
  rw [taken, dropped] at unmatched
  cases nodeName with
  | nil => exact nonempty rfl
  | cons c rest => cases unmatched

lemma testFails_iff_of_plain {step : Text} (nonempty : step ≠ []) (location : ∃ nodeName,
      matchLocationStep isTrieNameCharacter step = some (nodeName, predicateOf step))
    (plain : IsPlain step) : TestFails step ↔ EngineFails step := by
  rcases location with ⟨nodeName, matched⟩
  rcases locationStep_of_match matched with ⟨valid, ⟨isName, none_⟩ | ⟨-, split⟩⟩
  · apply iff_of_false
    · rintro ⟨piece, isPiece, fails⟩
      have noSlash : '/' ∉ step := by
        rw [isName]
        exact notMem_nodeName valid (by decide) (by decide)
      rw [piecesOf_plain noSlash nonempty] at isPiece
      rw [mem_singleton.mp isPiece, parsePredicate] at fails
      have noneDropped : step.dropWhile (fun c => c != '[') = [] := by
        apply dropWhile_eq_nil_iff.mpr
        intro c member
        rw [bne_iff_ne]
        rintro rfl
        exact notMem_nodeName valid (by decide) (by decide) (isName ▸ member)
      rw [noneDropped] at fails
      simp only [splitAtSlashes_replace noSlash] at fails
      rw [isName] at fails nonempty
      exact not_fails_nodeName valid nonempty fails
    · rintro ⟨some_, _⟩
      exact some_ none_
  · rcases plain with noBracket | ⟨some_, noSlash, noClosing⟩
    · exact absurd (by rw [split]; simp) noBracket
    · unfold TestFails EngineFails
      rw [and_iff_right some_]
      generalize predicateOf step = predicate at split some_ noSlash noClosing
      have noSlashStep : '/' ∉ step := by
        have noSlashName : '/' ∉ nodeName := notMem_nodeName valid (by decide) (by decide)
        rw [split]
        simp [noSlashName, noSlash]
      have noBracketName : ∀ c ∈ nodeName, (c != '[') = true := by
        intro c member
        rw [bne_iff_ne]
        rintro rfl
        exact notMem_nodeName valid (by decide) (by decide) member
      have noClosingPredicate : ∀ c ∈ predicate, (c != ']') = true := by
        intro c member
        rw [bne_iff_ne]
        rintro rfl
        exact noClosing member
      have dropped : step.dropWhile (fun c => c != '[') = '[' :: (predicate ++ [']']) := by
        rw [split, dropWhile_append_of_pos noBracketName]
        rfl
      have taken : (predicate ++ [']']).takeWhile (fun c => c != ']') = predicate := by
        rw [takeWhile_append_of_pos noClosingPredicate]
        exact append_nil predicate
      have parsed : parsePredicate step = clauses predicate := by
        rw [parsePredicate, dropped]
        simp only [taken]
        exact splitAtSlashes_replace noSlash []
      rw [piecesOf_plain noSlashStep nonempty]
      simp only [mem_singleton, exists_eq_left, parsed]

/-- Some predicate that is not plain has a clause that does not match. -/
def OddFails (redpath : Text) (FailsAt : Text -> Prop) : Prop :=
  ∃ step ∈ stepsOf redpath, ¬ IsPlain step ∧ FailsAt step

lemma or_iff_or_iff {both first second : Prop} :
    (both ∨ first ↔ both ∨ second) ↔ both ∨ (first ↔ second) := by
  by_cases isBoth : both
  · simp [isBoth]
  · simp [isBoth]

/-- What the engine executes is tested exactly if a plain predicate has a clause that does not
match, or the test and the engine agree about the predicates that are not plain. -/
theorem testForDisallowedPredicates_executed_iff :
    ∀ (path : Text) (subquery : Subquery) (expressions : List Planner.Expression),
      splitRedPath (redpathOf subquery) .nodeName = .ok expressions ->
      (TestsExecuted path subquery expressions ↔
        (∃ step ∈ stepsOf (redpathOf subquery), IsPlain step ∧ EngineFails step) ∨
          (OddFails (redpathOf subquery) TestFails ↔ OddFails (redpathOf subquery) EngineFails)) ∧
      ((∀ step ∈ stepsOf (redpathOf subquery), IsPlain step) ->
        TestsExecuted path subquery expressions) := by
  intro path subquery expressions accepted
  rcases piecesOf_redpath accepted with ⟨pieces, nonempty⟩
  rcases stepExpressions_predicates _ (stepsOf_of_split accepted).2 with ⟨locations, executed⟩
  have tested : disallowedPredicates path subquery ≠ [] ↔
      ∃ step ∈ stepsOf (redpathOf subquery), TestFails step := by
    rw [disallowedPredicates_ne_nil_iff, pieces]
    simp only [List.mem_flatMap]
    constructor
    · rintro ⟨piece, ⟨step, isStep, isPiece⟩, fails⟩
      exact ⟨step, isStep, piece, isPiece, fails⟩
    · rintro ⟨step, isStep, piece, isPiece, fails⟩
      exact ⟨piece, ⟨step, isStep, isPiece⟩, fails⟩
  have plain : ∀ step ∈ stepsOf (redpathOf subquery), IsPlain step ->
      (TestFails step ↔ EngineFails step) := fun step isStep isPlain =>
    testFails_iff_of_plain (nonempty step isStep) (locations step isStep) isPlain
  have parts : ∀ FailsAt : Text -> Prop,
      (∃ step ∈ stepsOf (redpathOf subquery), FailsAt step) ↔
        (∃ step ∈ stepsOf (redpathOf subquery), IsPlain step ∧ FailsAt step) ∨
          OddFails (redpathOf subquery) FailsAt := by
    intro FailsAt
    constructor
    · rintro ⟨step, isStep, fails⟩
      by_cases isPlain : IsPlain step
      · exact .inl ⟨step, isStep, isPlain, fails⟩
      · exact .inr ⟨step, isStep, isPlain, fails⟩
    · rintro (⟨step, isStep, _, fails⟩ | ⟨step, isStep, _, fails⟩)
      · exact ⟨step, isStep, fails⟩
      · exact ⟨step, isStep, fails⟩
  have samePlain :
      (∃ step ∈ stepsOf (redpathOf subquery), IsPlain step ∧ TestFails step) ↔
        ∃ step ∈ stepsOf (redpathOf subquery), IsPlain step ∧ EngineFails step := by
    constructor
    · rintro ⟨step, isStep, isPlain, fails⟩
      exact ⟨step, isStep, isPlain, (plain step isStep isPlain).mp fails⟩
    · rintro ⟨step, isStep, isPlain, fails⟩
      exact ⟨step, isStep, isPlain, (plain step isStep isPlain).mpr fails⟩
  have exact_ : TestsExecuted path subquery expressions ↔
      (∃ step ∈ stepsOf (redpathOf subquery), IsPlain step ∧ EngineFails step) ∨
        (OddFails (redpathOf subquery) TestFails ↔ OddFails (redpathOf subquery) EngineFails) := by
    unfold TestsExecuted
    rw [tested, executed, parts TestFails, parts EngineFails, samePlain]
    exact or_iff_or_iff
  refine ⟨exact_, ?_⟩
  intro allPlain
  apply exact_.mpr
  have noOdd : ∀ FailsAt, ¬ OddFails (redpathOf subquery) FailsAt := by
    rintro FailsAt ⟨step, isStep, odd, _⟩
    exact odd (allPlain step isStep)
  exact .inr (iff_of_false (noOdd _) (noOdd _))

/-- The subquery of a RedPath. -/
def redpathSubquery (redpath : Text) : Subquery :=
  { Subquery.empty with subqueryId := text "id", resource := .redpath redpath }

theorem testForDisallowedPredicates_executed_sensors :
    ∃ expressions,
      splitRedPath (redpathOf (redpathSubquery (text "/Chassis[*]/Sensors[ReadingType=$Type]")))
        .nodeName = .ok expressions ∧
      TestsExecuted (text "query.textproto")
        (redpathSubquery (text "/Chassis[*]/Sensors[ReadingType=$Type]")) expressions := by
  have accepted : splitRedPath
      (redpathOf (redpathSubquery (text "/Chassis[*]/Sensors[ReadingType=$Type]"))) .nodeName =
      .ok [⟨.nodeName, text "Chassis"⟩, ⟨.predicate, text "*"⟩, ⟨.nodeName, text "Sensors"⟩,
        ⟨.predicate, text "ReadingType=$Type"⟩] := by
    decide +kernel
  refine ⟨_, accepted, ?_⟩
  apply (testForDisallowedPredicates_executed_iff _ _ _ accepted).2
  decide +kernel

/-- A value that begins with a slash is cut off from its comparator. -/
theorem testForDisallowedPredicates_slash :
    ¬ ∀ (path : Text) (subquery : Subquery) (expressions : List Planner.Expression),
      splitRedPath (redpathOf subquery) .nodeName = .ok expressions ->
      TestsExecuted path subquery expressions := by
  intro always
  have accepted : splitRedPath
      (redpathOf (redpathSubquery (text "/Systems[Path=/dev]"))) .nodeName =
      .ok [⟨.nodeName, text "Systems"⟩, ⟨.predicate, text "Path=/dev"⟩] := by
    decide +kernel
  have tested := always (text "query.textproto") _ _ accepted
  have reported : disallowedPredicates (text "query.textproto")
      (redpathSubquery (text "/Systems[Path=/dev]")) ≠ [] := by
    decide +kernel
  have matched : ¬ Fails (clauses (text "Path=/dev")) := by
    decide +kernel
  rcases tested.mp reported with ⟨expression, member, isPredicate, fails⟩
  rcases List.mem_cons.mp member with rfl | later
  · cases isPredicate
  · rw [List.mem_singleton.mp later] at fails
    exact matched fails

end Ecclesia.QueryValidator
