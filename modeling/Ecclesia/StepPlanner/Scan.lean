import Ecclesia.Predicates.VariableSubstitution
import Ecclesia.StepPlanner.Pieces

namespace Ecclesia.StepPlanner

open Absl List Bool
open Predicates (operatorText strContains_dollar)
open JoinedPredicate (populated)

/-!
# What is kept of a predicate

An expression that has a variable is dropped with the piece after it, or at the end with the
piece before.  The piece is the operator, unless a backslash before a blank has moved the
pieces.
-/

/-- Expressions with a variable that end in a backslash come in pairs. If the last expression has a
variable, then the last one without does not end in a backslash; `escaped` says whether the one so
far does. -/
def Aligned (last : GroupedExpression) (escaped : Bool) :
    List (GroupedExpression × Connective) -> Prop
  | [] => last.hasVariable = true -> escaped = false
  | (operand, _) :: rest =>
    if operand.hasVariable then
      if operand.escapes then
        match rest with
        | [] => False
        | (next, _) :: others =>
          next.hasVariable = true ∧ next.escapes = true ∧ Aligned last escaped others
      else Aligned last escaped rest
    else Aligned last operand.escapes rest

section

variable {last operand next : GroupedExpression} {escaped : Bool} {op after : Connective}
  {rest : List (GroupedExpression × Connective)}

lemma aligned_keep (plain : ¬ operand.hasVariable = true) :
    Aligned last escaped ((operand, op) :: rest) = Aligned last operand.escapes rest := by
  rw [Aligned.eq_def]
  dsimp only
  rw [if_neg plain]

section

variable (hasVariable : operand.hasVariable = true)

include hasVariable

lemma aligned_drop (ends : ¬ operand.escapes = true) :
    Aligned last escaped ((operand, op) :: rest) = Aligned last escaped rest := by
  rw [Aligned.eq_def]
  dsimp only
  rw [if_pos hasVariable, if_neg ends]

lemma aligned_pair (escapes : operand.escapes = true) :
    Aligned last escaped ((operand, op) :: (next, after) :: rest) =
      (next.hasVariable = true ∧ next.escapes = true ∧ Aligned last escaped rest) := by
  rw [Aligned.eq_def]
  dsimp only
  rw [if_pos hasVariable, if_pos escapes]

lemma not_aligned_single
    (escapes : operand.escapes = true) : ¬ Aligned last escaped [(operand, op)] := by
  rw [Aligned.eq_def]
  dsimp only
  rw [if_pos hasVariable, if_pos escapes]
  exact id

end

end

/-- What is kept, in pieces; nothing if the last expression has a variable and nothing was kept. -/
def scan (last : GroupedExpression) : List (List Text) -> List (GroupedExpression × Connective) ->
    Option (List (List Text))
  | kept, [] =>
    if last.hasVariable then
      if kept.isEmpty then none else some kept.dropLast
    else some (kept ++ [[last.render]])
  | kept, (operand, op) :: rest =>
    if operand.hasVariable then
      if operand.escapes then
        -- The piece after it is an operand, not the operator.
        match rest with
        | [] => some kept
        | (next, after) :: others =>
          if next.escapes then scan last kept others
          else scan last (kept ++ [[operatorText after]]) others
      else scan last kept rest
    else if operand.escapes then scan last (kept ++ [[operand.render, operatorText op]]) rest
    else scan last (kept ++ [[operand.render], [operatorText op]]) rest

lemma hasVariable_pieceText (words : List Text) :
    strContains (pieceText words) (text "$") = words.any fun word => strContains word (text "$") := by
  simp only [strContains_dollar, pieceText, strJoin]
  induction words with
  | nil => rfl
  | cons word rest ih =>
    cases rest with
    | nil => simp [intercalate_singleton]
    | cons next others =>
      rw [any_cons, <- ih]
      simp [text]

lemma strContains_operatorText (op : Connective) :
    strContains (operatorText op) (text "$") = false := by
  cases op with
  | and => decide
  | or => decide

lemma pieceText_singleton (word : Text) : pieceText [word] = word := by
  change (text " ").intercalate [word] = word
  exact intercalate_singleton

section

variable {kept rest : List Text} {piece skipped : Text}

lemma keepPopulated_last (hasVariable : strContains piece (text "$") = true) :
    keepPopulated false kept [piece] = if kept.isEmpty then none else some kept.dropLast := by
  rw [keepPopulated, if_pos hasVariable]
  rfl

lemma keepPopulated_drop (hasVariable : strContains piece (text "$") = true) :
    keepPopulated false kept (piece :: skipped :: rest) = keepPopulated false kept rest := by
  rw [keepPopulated, if_pos hasVariable]
  rfl

lemma keepPopulated_keep (plain : strContains piece (text "$") = false) :
    keepPopulated false kept (piece :: rest) = keepPopulated false (kept ++ [piece]) rest := by
  rw [keepPopulated, plain]
  rfl

end

lemma keepPopulated_pieces (last : GroupedExpression)
    (before : List (GroupedExpression × Connective)) (kept : List (List Text)) :
    keepPopulated false (kept.map pieceText) ((pieces last before).map pieceText) =
      (scan last kept before).map (List.map pieceText) := by
  have single : ∀ word : Text,
      strContains (pieceText [word]) (text "$") = strContains word (text "$") := by
    intro word
    rw [pieceText_singleton]
  have joined : ∀ (operand : GroupedExpression) (op : Connective),
      strContains (pieceText [operand.render, operatorText op]) (text "$") =
        operand.hasVariable := by
    intro operand op
    rw [hasVariable_pieceText, any_cons, any_cons, strContains_operatorText]
    simp [GroupedExpression.hasVariable]
  have ofOperator : ∀ op : Connective,
      strContains (pieceText [operatorText op]) (text "$") = false := by
    intro op
    rw [single, strContains_operatorText]
  fun_induction scan last kept before with
  | case1 kept hasVariable empty =>
    cases List.isEmpty_iff.mp empty
    exact keepPopulated_last ((single _).trans hasVariable)
  | case2 kept hasVariable nonempty =>
    rw [pieces, map_cons, map_nil, keepPopulated_last ((single _).trans hasVariable),
      if_neg (by simpa using nonempty), Option.map_some, map_dropLast]
  | case3 kept plain =>
    rw [pieces, map_cons,
      keepPopulated_keep ((single _).trans (eq_false_of_not_eq_true plain)), Option.map_some,
      map_append]
    rfl
  | case4 kept operand op hasVariable escapes =>
    rw [pieces, if_pos escapes, pieces, map_cons, map_cons,
      keepPopulated_drop ((joined _ _).trans hasVariable)]
    rfl
  | case5 kept operand op hasVariable escapes next after others nextEscapes ih =>
    rw [pieces, if_pos escapes, pieces, if_pos nextEscapes, map_cons, map_cons,
      keepPopulated_drop ((joined _ _).trans hasVariable), ih]
  | case6 kept operand op hasVariable escapes next after others nextEnds ih =>
    rw [pieces, if_pos escapes, pieces, if_neg nextEnds, map_cons, map_cons,
      keepPopulated_drop ((joined _ _).trans hasVariable), map_cons,
      keepPopulated_keep (ofOperator after), <- ih, map_append]
    rfl
  | case7 kept operand op rest hasVariable ends ih =>
    rw [pieces, if_neg ends, map_cons, map_cons,
      keepPopulated_drop ((single _).trans hasVariable), ih]
  | case8 kept operand op rest plain escapes ih =>
    rw [pieces, if_pos escapes, map_cons,
      keepPopulated_keep ((joined _ _).trans (eq_false_of_not_eq_true plain)), <- ih,
      map_append]
    rfl
  | case9 kept operand op rest plain ends ih =>
    rw [pieces, if_neg ends, map_cons, map_cons,
      keepPopulated_keep ((single _).trans (eq_false_of_not_eq_true plain)),
      keepPopulated_keep (ofOperator op), <- ih, append_assoc, map_append]
    rfl

lemma pieceText_append {first second : List Text} (nonempty : first ≠ []) (others : second ≠ []) :
    pieceText (first ++ second) = pieceText first ++ text " " ++ pieceText second := by
  unfold pieceText strJoin
  induction first with
  | nil => exact absurd rfl nonempty
  | cons word rest ih =>
    cases rest with
    | nil =>
      rw [singleton_append, intercalate_cons_of_ne_nil others, intercalate_singleton]
    | cons next more =>
      have later := ih (cons_ne_nil next more)
      rw [cons_append, intercalate_cons_of_ne_nil
        (append_ne_nil_of_left_ne_nil (cons_ne_nil next more) second), later,
        intercalate_cons_of_ne_nil (cons_ne_nil next more)]
      simp only [append_assoc]

variable {kept : List (List Text)}

lemma pieceText_pieces (nonempty : ∀ piece ∈ kept, piece ≠ []) :
    strJoin (kept.map pieceText) (text " ") = pieceText kept.flatten := by
  induction kept with
  | nil => rfl
  | cons piece rest ih =>
    have later := ih fun other member => nonempty other (mem_cons_of_mem piece member)
    cases rest with
    | nil =>
      rw [flatten_cons, flatten_nil, append_nil]
      exact pieceText_singleton (pieceText piece)
    | cons next others =>
      have some_ : (next :: others).flatten ≠ [] := by
        intro empty
        exact nonempty next (.tail _ (.head _)) (flatten_eq_nil_iff.mp empty next (.head _))
      rw [flatten_cons, pieceText_append (nonempty piece (.head _)) some_, <- later]
      exact intercalate_cons_cons

/-- What the function returns, in words. -/
lemma invalidate_render (predicate : JoinedPredicate) (several : predicate.before ≠ []) :
    invalidateUnpopulatedVariables predicate.render =
      match scan predicate.last [] predicate.before with
      | none => kPredicateSelectAll
      | some kept => strJoin (kept.map pieceText) (text " ") := by
  have many : ((pieces predicate.last predicate.before).map pieceText).length ≠ 1 := by
    rcases predicate with ⟨_ | ⟨⟨operand, op⟩, rest⟩, last⟩
    · exact absurd rfl several
    · have some_ := length_pos_iff.mpr (@pieces_ne_nil last rest)
      rw [length_map, pieces]
      dsimp only
      split
      · rw [length_cons]
        omega
      · rw [length_cons, length_cons]
        omega
  unfold invalidateUnpopulatedVariables
  rw [splitExpr_render]
  simp only [if_neg many]
  have scanned := keepPopulated_pieces predicate.last predicate.before []
  rw [map_nil] at scanned
  rw [scanned]
  cases scan predicate.last [] predicate.before with
  | none => rfl
  | some kept => rfl

/-- The pieces have words, and the last one has two of them if the operand in it is escaped. -/
structure Filled (escaped : Bool) (kept : List (List Text)) : Prop where
  nonempty : ∀ piece ∈ kept, piece ≠ []
  final : ∀ init piece, kept = init ++ [piece] -> piece.length = if escaped then 2 else 1

variable {last : GroupedExpression} {before : List (GroupedExpression × Connective)}
  {after : List (List Text)}

lemma scan_words (Kind : Text -> Prop) (ofLast : last.hasVariable = false -> Kind last.render)
    (scanned : scan last kept before = some after)
    (operands : ∀ entry ∈ before, entry.1.hasVariable = false -> Kind entry.1.render)
    (operators : ∀ op, Kind (operatorText op))
    (sofar : ∀ piece ∈ kept, piece ≠ [] ∧ ∀ word ∈ piece, Kind word) :
    ∀ piece ∈ after, piece ≠ [] ∧ ∀ word ∈ piece, Kind word := by
  have further : ∀ {kept : List (List Text)} {piece : List Text},
      (∀ piece ∈ kept, piece ≠ [] ∧ ∀ word ∈ piece, Kind word) ->
      piece ≠ [] -> (∀ word ∈ piece, Kind word) ->
      ∀ other ∈ kept ++ [piece], other ≠ [] ∧ ∀ word ∈ other, Kind word := by
    intro kept piece sofar nonempty words other member
    rcases mem_append.mp member with inside | isLast
    · exact sofar other inside
    · rw [mem_singleton.mp isLast]
      exact ⟨nonempty, words⟩
  have one : ∀ {word : Text}, Kind word -> ∀ other ∈ [word], Kind other := by
    intro word kind other member
    rw [mem_singleton.mp member]
    exact kind
  fun_induction scan last kept before with
  | case1 kept hasVariable empty => cases scanned
  | case2 kept hasVariable nonempty =>
    cases scanned
    exact fun piece member => sofar piece (mem_of_mem_dropLast member)
  | case3 kept plain =>
    cases scanned
    exact further sofar (cons_ne_nil _ _) (one (ofLast (eq_false_of_not_eq_true plain)))
  | case4 kept operand op hasVariable escapes =>
    cases scanned
    exact sofar
  | case5 kept operand op hasVariable escapes next after others nextEscapes ih =>
    exact ih scanned (fun entry member => operands entry (.tail _ (.tail _ member))) sofar
  | case6 kept operand op hasVariable escapes next after others nextEnds ih =>
    exact ih scanned (fun entry member => operands entry
      (.tail _ (.tail _ member)))
      (further sofar (cons_ne_nil _ _) (one (operators after)))
  | case7 kept operand op rest hasVariable ends ih =>
    exact ih scanned (fun entry member => operands entry (.tail _ member)) sofar
  | case8 kept operand op rest plain escapes ih =>
    have kind := operands _ (.head _) (eq_false_of_not_eq_true plain)
    apply ih scanned (fun entry member => operands entry (.tail _ member))
    apply further sofar (cons_ne_nil _ _)
    intro word member
    rcases mem_cons.mp member with rfl | isOperator
    · exact kind
    · exact one (operators op) word isOperator
  | case9 kept operand op rest plain ends ih =>
    have kind := operands _ (.head _) (eq_false_of_not_eq_true plain)
    apply ih scanned (fun entry member => operands entry (.tail _ member))
    have operand_ := further sofar (cons_ne_nil _ _) (one kind)
    have both := further operand_ (cons_ne_nil _ _) (one (operators op))
    rw [append_assoc] at both
    exact both

/-- At most the last piece is taken back. -/
lemma scan_prefix (scanned : scan last kept before = some after) :
    kept <+: after ∨ after = kept.dropLast := by
  have shorter : ∀ {piece : List Text} {kept after : List (List Text)},
      kept ++ [piece] <+: after ∨ after = (kept ++ [piece]).dropLast -> kept <+: after := by
    intro piece kept after either
    rcases either with longer | rfl
    · exact (prefix_append kept [piece]).trans longer
    · rw [dropLast_concat]
  fun_induction scan last kept before with
  | case1 kept hasVariable empty => cases scanned
  | case2 kept hasVariable nonempty =>
    cases scanned
    exact .inr rfl
  | case3 kept plain =>
    cases scanned
    exact .inl (prefix_append _ _)
  | case4 kept operand op hasVariable escapes =>
    cases scanned
    exact .inl (prefix_refl _)
  | case5 kept operand op hasVariable escapes next after others nextEscapes ih =>
    exact ih scanned
  | case6 kept operand op hasVariable escapes next after others nextEnds ih =>
    exact .inl (shorter (ih scanned))
  | case7 kept operand op rest hasVariable ends ih => exact ih scanned
  | case8 kept operand op rest plain escapes ih => exact .inl (shorter (ih scanned))
  | case9 kept operand op rest plain ends ih =>
    have both := ih scanned
    have split : kept ++ [[operand.render], [operatorText op]] =
        (kept ++ [[operand.render]]) ++ [[operatorText op]] := by
      rw [append_assoc]
      rfl
    rw [split] at both
    exact .inl ((prefix_append kept [[operand.render]]).trans (shorter both))

lemma Filled.concat {kept : List (List Text)} {escaped before : Bool} {piece : List Text}
    (filled : Filled before kept) (size : piece.length = if escaped then 2 else 1) :
    Filled escaped (kept ++ [piece]) := by
  constructor
  · intro other member
    rcases mem_append.mp member with inside | isLast
    · exact filled.nonempty other inside
    · rw [mem_singleton.mp isLast]
      apply ne_nil_of_length_pos
      rw [size]
      split <;> decide
  · intro init other split
    have parts := append_inj' split rfl
    rw [<- (cons.inj parts.2).1]
    exact size

lemma Filled.nil {escaped : Bool} : Filled escaped [] := by
  constructor
  · exact forall_mem_nil _
  · intro init piece split
    exact absurd split.symm (append_ne_nil_of_right_ne_nil init (cons_ne_nil _ _))

variable {escaped : Bool}

lemma Filled.split (filled : Filled escaped kept) (nonempty : ¬ kept.isEmpty = true) :
    ∃ init piece, kept = init ++ [piece] ∧ piece.length = if escaped then 2 else 1 := by
  rcases eq_nil_or_concat kept with rfl | ⟨init, piece, rfl⟩
  · exact absurd rfl nonempty
  · rw [concat_eq_append] at filled ⊢
    exact ⟨init, piece, rfl, filled.final init piece rfl⟩

section

variable {last operand : GroupedExpression} {op : Connective}
  {rest : List (GroupedExpression × Connective)}

lemma populated_cons_drop (hasVariable : operand.hasVariable = true) :
    populated ⟨(operand, op) :: rest, last⟩ = populated ⟨rest, last⟩ := by
  apply filter_cons_of_neg
  rw [hasVariable]
  decide

lemma populated_cons_keep (plain : ¬ operand.hasVariable = true) :
    populated ⟨(operand, op) :: rest, last⟩ = operand :: populated ⟨rest, last⟩ := by
  apply filter_cons_of_pos
  rw [eq_false_of_not_eq_true plain]
  rfl

lemma populated_nil_drop (hasVariable : last.hasVariable = true) : populated ⟨[], last⟩ = [] := by
  apply filter_cons_of_neg
  rw [hasVariable]
  decide

lemma populated_nil_keep (plain : ¬ last.hasVariable = true) : populated ⟨[], last⟩ = [last] := by
  apply filter_cons_of_pos
  rw [eq_false_of_not_eq_true plain]
  rfl

end

/-- The words of operands that an operator follows. -/
def doneWords (done : List (GroupedExpression × Connective)) : List Text :=
  done.flatMap fun entry => [entry.1.render, operatorText entry.2]

lemma doneWords_concat (done : List (GroupedExpression × Connective))
    (operand : GroupedExpression) (op : Connective) :
    doneWords (done ++ [(operand, op)]) = doneWords done ++ [operand.render, operatorText op] := by
  rw [doneWords, flatMap_append]
  rfl

lemma scan_of_aligned {done : List (GroupedExpression × Connective)}
    (aligned : Aligned last escaped before) (filled : Filled escaped kept)
    (sofar : kept.flatten = doneWords done) :
    (scan last kept before = none ∧ done = [] ∧ populated ⟨before, last⟩ = []) ∨
      ∃ (after : List (List Text)) (left : JoinedPredicate),
        scan last kept before = some after ∧ (∀ piece ∈ after, piece ≠ []) ∧
        left.operands = done.map Prod.fst ++ populated ⟨before, last⟩ ∧
        after.flatten = left.words := by
  fun_induction scan last kept before generalizing escaped done with
  | case1 kept hasVariable empty =>
    refine .inl ⟨rfl, ?_, populated_nil_drop hasVariable⟩
    rw [List.isEmpty_iff.mp empty] at sofar
    cases done with
    | nil => rfl
    | cons entry rest => cases sofar
  | case2 kept hasVariable nonempty =>
    rcases filled.split nonempty with ⟨init, piece, rfl, size⟩
    rw [aligned hasVariable] at size
    rcases eq_nil_or_concat done with rfl | ⟨others, ⟨operand, op⟩, rfl⟩
    · rw [flatten_append] at sofar
      have empty := (append_eq_nil_iff.mp sofar).2
      rw [flatten_cons, flatten_nil, append_nil] at empty
      rw [empty] at size
      cases size
    · rw [concat_eq_append, doneWords_concat] at sofar
      have regrouped : init.flatten ++ piece =
          (doneWords others ++ [operand.render]) ++ [operatorText op] := by
        simpa using sofar
      have parts := append_inj' regrouped size
      refine .inr ⟨init, ⟨others, operand⟩, ?_, ?_, ?_, parts.1⟩
      · rw [dropLast_concat]
      · exact fun other member => filled.nonempty other (mem_append_left _ member)
      · rw [populated_nil_drop hasVariable, append_nil, concat_eq_append,
          map_append]
        rfl
  | case3 kept plain =>
    refine .inr ⟨_, ⟨done, last⟩, rfl,
      (@Filled.concat kept false escaped [last.render] filled rfl).nonempty, ?_, ?_⟩
    · rw [populated_nil_keep plain]
      rfl
    · rw [flatten_append, sofar]
      rfl
  | case4 kept operand op hasVariable escapes =>
    exact absurd aligned (not_aligned_single hasVariable escapes)
  | case5 kept operand op hasVariable escapes next after others nextEscapes ih =>
    rw [aligned_pair hasVariable escapes] at aligned
    rw [populated_cons_drop hasVariable, populated_cons_drop aligned.1]
    exact ih aligned.2.2 filled sofar
  | case6 kept operand op hasVariable escapes next after others nextEnds ih =>
    rw [aligned_pair hasVariable escapes] at aligned
    exact absurd aligned.2.1 nextEnds
  | case7 kept operand op rest hasVariable ends ih =>
    rw [aligned_drop hasVariable ends] at aligned
    rw [populated_cons_drop hasVariable]
    exact ih aligned filled sofar
  | case8 kept operand op rest plain escapes ih =>
    rw [aligned_keep plain] at aligned
    rw [populated_cons_keep plain]
    have more : (kept ++ [[operand.render, operatorText op]]).flatten =
        doneWords (done ++ [(operand, op)]) := by
      rw [flatten_append, sofar, doneWords_concat]
      rfl
    have next := ih aligned (filled.concat (by rw [escapes]; rfl)) more
    rcases next with ⟨_, impossible, _⟩ | ⟨after, left, scanned, nonempty, operands, words⟩
    · exact absurd impossible (append_ne_nil_of_right_ne_nil _ (cons_ne_nil _ _))
    · refine .inr ⟨after, left, scanned, nonempty, ?_, words⟩
      rw [operands, map_append, append_assoc]
      rfl
  | case9 kept operand op rest plain ends ih =>
    rw [aligned_keep plain] at aligned
    rw [populated_cons_keep plain]
    have twoPieces : kept ++ [[operand.render], [operatorText op]] =
        kept ++ [[operand.render]] ++ [[operatorText op]] := by
      rw [append_assoc]
      rfl
    rw [twoPieces] at ih ⊢
    have operand_ : Filled false (kept ++ [[operand.render]]) := filled.concat rfl
    have more : (kept ++ [[operand.render]] ++ [[operatorText op]]).flatten =
        doneWords (done ++ [(operand, op)]) := by
      rw [append_assoc, flatten_append, sofar, doneWords_concat]
      rfl
    have next := ih aligned (operand_.concat (by rw [eq_false_of_not_eq_true ends]; rfl)) more
    rcases next with ⟨_, impossible, _⟩ | ⟨after, left, scanned, nonempty, operands, words⟩
    · exact absurd impossible (append_ne_nil_of_right_ne_nil _ (cons_ne_nil _ _))
    · refine .inr ⟨after, left, scanned, nonempty, ?_, words⟩
      rw [operands, map_append, append_assoc]
      rfl

lemma scan_none (scanned : scan last kept before = none) :
    kept = [] ∧ last.hasVariable = true ∧
      (∀ entry ∈ before, entry.1.hasVariable = false -> entry.1.escapes = true) ∧
      (populated ⟨before, last⟩ = [] -> Aligned last false before) := by
  fun_induction scan last kept before with
  | case1 kept hasVariable empty =>
    exact ⟨List.isEmpty_iff.mp empty, hasVariable, fun _ impossible => (nomatch impossible),
      fun _ _ => rfl⟩
  | case2 kept hasVariable nonempty => cases scanned
  | case3 kept plain => cases scanned
  | case4 kept operand op hasVariable escapes => cases scanned
  | case5 kept operand op hasVariable escapes next after others nextEscapes ih =>
    rcases ih scanned with ⟨empty, ofLast, escaping, aligned⟩
    refine ⟨empty, ofLast, ?_, ?_⟩
    · intro entry member plain
      rcases mem_cons.mp member with rfl | later
      · exact escapes
      · rcases mem_cons.mp later with rfl | later
        · exact nextEscapes
        · exact escaping entry later plain
    · rw [populated_cons_drop hasVariable]
      intro none_
      by_cases nextVariable : next.hasVariable = true
      · rw [populated_cons_drop nextVariable] at none_
        rw [aligned_pair hasVariable escapes]
        exact ⟨nextVariable, nextEscapes, aligned none_⟩
      · rw [populated_cons_keep nextVariable] at none_
        cases none_
  | case6 kept operand op hasVariable escapes next after others nextEnds ih =>
    exact absurd (ih scanned).1 (append_ne_nil_of_right_ne_nil _ (cons_ne_nil _ _))
  | case7 kept operand op rest hasVariable ends ih =>
    rcases ih scanned with ⟨empty, ofLast, escaping, aligned⟩
    refine ⟨empty, ofLast, ?_, ?_⟩
    · intro entry member plain
      rcases mem_cons.mp member with rfl | later
      · rw [hasVariable] at plain
        cases plain
      · exact escaping entry later plain
    · rw [populated_cons_drop hasVariable, aligned_drop hasVariable ends]
      exact aligned
  | case8 kept operand op rest plain escapes ih =>
    exact absurd (ih scanned).1 (append_ne_nil_of_right_ne_nil _ (cons_ne_nil _ _))
  | case9 kept operand op rest plain ends ih =>
    exact absurd (ih scanned).1 (append_ne_nil_of_right_ne_nil _ (cons_ne_nil _ _))

/-- Words that alternate are no more than the populated operands need, and as many only as
themselves. -/
lemma scan_bound (scanned : scan last kept before = some after) (filled : Filled escaped kept)
    (even : Even kept.flatten.length) (alternate : Alternate after.flatten) :
    after.flatten.length + 1 <=
        kept.flatten.length + 2 * (populated ⟨before, last⟩).length ∧
      (after.flatten.length + 1 =
          kept.flatten.length + 2 * (populated ⟨before, last⟩).length ->
        Aligned last escaped before) := by
  fun_induction scan last kept before generalizing escaped with
  | case1 kept hasVariable empty => cases scanned
  | case2 kept hasVariable nonempty =>
    cases scanned
    rcases filled.split nonempty with ⟨init, piece, rfl, size⟩
    rw [dropLast_concat] at alternate ⊢
    have sum : (init ++ [piece]).flatten.length = init.flatten.length + piece.length := by
      simp
    cases escaped with
    | true =>
      rw [if_pos rfl] at size
      omega
    | false =>
      exact ⟨by simp [size], fun _ _ => rfl⟩
  | case3 kept plain =>
    cases scanned
    rw [populated_nil_keep plain]
    refine ⟨by simp, ?_⟩
    intro _ hasVariable
    exact absurd hasVariable plain
  | case4 kept operand op hasVariable escapes =>
    cases scanned
    exact absurd alternate.odd (Nat.not_odd_iff_even.mpr even)
  | case5 kept operand op hasVariable escapes next after others nextEscapes ih =>
    rcases ih scanned filled even with ⟨fewer, aligned⟩
    rw [populated_cons_drop hasVariable]
    by_cases nextVariable : next.hasVariable = true
    · rw [populated_cons_drop nextVariable, aligned_pair hasVariable escapes]
      exact ⟨fewer, fun asMany => ⟨nextVariable, nextEscapes, aligned asMany⟩⟩
    · rw [populated_cons_keep nextVariable, length_cons]
      exact ⟨by omega, fun asMany => by omega⟩
  | case6 kept operand op hasVariable escapes next after others nextEnds ih =>
    -- An operator stands where an operand has to be.
    rcases scan_prefix scanned with ⟨more, rfl⟩ | rfl
    · have isWord : ((kept ++ [[operatorText after]]) ++ more).flatten[kept.flatten.length]? =
          some (operatorText after) := by
        simp
      exact absurd rfl (alternate.operands _ _ isWord even after)
    · rw [dropLast_concat] at alternate
      exact absurd alternate.odd (Nat.not_odd_iff_even.mpr even)
  | case7 kept operand op rest hasVariable ends ih =>
    rw [populated_cons_drop hasVariable, aligned_drop hasVariable ends]
    exact ih scanned filled even
  | case8 kept operand op rest plain escapes ih =>
    have longer : (kept ++ [[operand.render, operatorText op]]).flatten.length =
        kept.flatten.length + 2 := by
      simp
    have one : Filled true (kept ++ [[operand.render, operatorText op]]) := filled.concat rfl
    rcases ih scanned one (by rw [longer]; exact even.add even_two) with ⟨fewer, aligned⟩
    rw [populated_cons_keep plain, length_cons, aligned_keep plain, escapes]
    exact ⟨by omega, fun asMany => aligned (by omega)⟩
  | case9 kept operand op rest plain ends ih =>
    have longer : (kept ++ [[operand.render], [operatorText op]]).flatten.length =
        kept.flatten.length + 2 := by
      simp
    have twoPieces : kept ++ [[operand.render], [operatorText op]] =
        kept ++ [[operand.render]] ++ [[operatorText op]] := by
      rw [append_assoc]
      rfl
    have operand_ : Filled false (kept ++ [[operand.render]]) := filled.concat rfl
    have both : Filled false (kept ++ [[operand.render], [operatorText op]]) := by
      rw [twoPieces]
      exact operand_.concat rfl
    rcases ih scanned both (by rw [longer]; exact even.add even_two) with ⟨fewer, aligned⟩
    rw [populated_cons_keep plain, length_cons, aligned_keep plain, eq_false_of_not_eq_true ends]
    exact ⟨by omega, fun asMany => aligned (by omega)⟩

end Ecclesia.StepPlanner
