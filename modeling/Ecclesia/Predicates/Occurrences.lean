import Ecclesia.Library.Assoc
import Ecclesia.Predicates.Disjunction

namespace Ecclesia.Predicates

open Absl List Option
open Template (fillSegments)

/-!
# Where variables occur in a predicate

A reading of a predicate says where the name of each variable ends.  Some of the variables have
been substituted, the others are still written with their dollar sign.  A replacement of one
more variable is described on the reading, as long as its pattern matches nothing but
occurrences of the variable.
-/

/-- A variable where it occurs, with the text in front of it that belongs to its condition. -/
structure Occurrence where
  front : Text
  name : Text

namespace Occurrence

def written (occurrence : Occurrence) : Text :=
  occurrence.front ++ '$' :: occurrence.name

end Occurrence

/-- A predicate with the variables that occur in it. -/
abbrev Reading := Template Char Occurrence

def Reading.predicate (reading : Reading) : Text :=
  reading.fill Occurrence.written

/-- Every dollar sign belongs to an occurrence. -/
structure SegmentsMarked (segments : List (Text × Occurrence)) (last : Text) : Prop where
  before : ∀ segment ∈ segments, '$' ∉ segment.1
  front : ∀ segment ∈ segments, '$' ∉ segment.2.front
  name : ∀ segment ∈ segments, '$' ∉ segment.2.name
  last : '$' ∉ last

lemma SegmentsMarked.tail {first : Text × Occurrence} {rest : List (Text × Occurrence)}
    {last : Text} (marked : SegmentsMarked (first :: rest) last) : SegmentsMarked rest last where
  before segment member := marked.before segment (mem_cons_of_mem first member)
  front segment member := marked.front segment (mem_cons_of_mem first member)
  name segment member := marked.name segment (mem_cons_of_mem first member)
  last := marked.last

/-- The occurrences for which there is a text are substituted by it. -/
def partly (substituted : Occurrence -> Option Text) (occurrence : Occurrence) : Text :=
  (substituted occurrence).getD occurrence.written

variable {substituted : Occurrence -> Option Text}

lemma partly_some {occurrence : Occurrence} {done : Text}
    (isDone : substituted occurrence = some done) : partly substituted occurrence = done := by
  rw [partly, isDone, getD_some]

lemma partly_none {occurrence : Occurrence} (isLeft : substituted occurrence = none) :
    partly substituted occurrence = occurrence.written := by
  rw [partly, isLeft, getD_none]

/-- The text up to the dollar sign of a variable, and behind it. -/
lemma append_written (scanned before : Text) (occurrence : Occurrence) (after : Text) :
    scanned ++ (before ++ (occurrence.written ++ after)) =
      (scanned ++ (before ++ occurrence.front)) ++ '$' :: (occurrence.name ++ after) := by
  rw [Occurrence.written]
  simp only [append_assoc, cons_append]

variable {substituted more : Occurrence -> Option Text} {variableName property replacement : Text}

/-- One more variable is substituted where it has a text in front of it. -/
def Adds (substituted more : Occurrence -> Option Text)
    (variableName property replacement : Text) : Prop :=
  ∀ occurrence : Occurrence, more occurrence =
    match substituted occurrence with
    | some done => some done
    | none =>
      if occurrence.name = variableName ∧ property <:+ occurrence.front then
        some (occurrence.front.take (occurrence.front.length - property.length) ++ replacement)
      else none

/-- Where the text matches, there is an occurrence of the variable with the property. -/
def MatchesOnly (substituted : Occurrence -> Option Text) (variableName property : Text)
    (segments : List (Text × Occurrence)) (last : Text) : Prop :=
  ∀ before segment after, segments = before ++ segment :: after ->
    substituted segment.2 = none ->
    property <:+ Template.fillSegments (partly substituted) before (segment.1 ++ segment.2.front) ->
    variableName <+: segment.2.name ++ Template.fillSegments (partly substituted) after last ->
      segment.2.name = variableName ∧ property <:+ segment.2.front

variable {segments before rest : List (Text × Occurrence)} {last : Text}

section

variable (adds : Adds substituted more variableName property replacement)
  (unmarked : '$' ∉ property)
  (plain : ∀ occurrence done, substituted occurrence = some done -> '$' ∉ occurrence.front -> '$' ∉ done)
  (marked : SegmentsMarked segments last)
  (matchesOnly : MatchesOnly substituted variableName property segments last)

include adds unmarked plain marked matchesOnly

lemma replace_rest (split : segments = before ++ rest) {scanned : Text} (noDollar : '$' ∉ scanned)
    (isScanned : scanned <:+ fillSegments (partly substituted) before []) :
    strReplaceAll (scanned ++ fillSegments (partly substituted) rest last)
        [(property ++ '$' :: variableName, replacement)] =
      scanned ++ fillSegments (partly more) rest last := by
  induction rest generalizing before scanned with
  | nil =>
    apply strReplaceAll_unmarked
    exact not_mem_append noDollar marked.last
  | cons segment rest ih =>
    rcases segment with ⟨text, occurrence⟩
    have member : (text, occurrence) ∈ segments := by
      rw [split]
      exact mem_append_right before (.head _)
    have noText := marked.before _ member
    have noFront := marked.front _ member
    have noName := marked.name _ member
    have splitNext : segments = (before ++ [(text, occurrence)]) ++ rest := by
      rw [split, append_assoc]
      rfl
    have scannedNext (t : Text) : scanned ++ (text ++ t) <:+
        fillSegments (partly substituted) before (text ++ t) := by
      rw [Template.fillSegments_last]
      rcases isScanned with ⟨front, whole⟩
      exact ⟨front, by rw [<- whole, append_assoc]⟩
    have filledNext : fillSegments (partly substituted)
          (before ++ [(text, occurrence)]) [] =
        fillSegments (partly substituted) before (text ++ partly substituted occurrence) := by
      rw [Template.fillSegments_append]
      simp [fillSegments]
    have added := adds occurrence
    rw [fillSegments, fillSegments]
    cases isDone : substituted occurrence with
    | some done =>
      rw [isDone] at added
      have now := partly_some isDone
      have later := partly_some added
      have noDollarNext : '$' ∉ scanned ++ (text ++ done) :=
        not_mem_append noDollar (not_mem_append noText (plain _ _ isDone noFront))
      have next := ih splitNext noDollarNext (by
        rw [filledNext, now]
        exact scannedNext done)
      rw [now, later]
      simpa only [append_assoc] using next
    | none =>
      rw [isDone] at added
      have now := partly_none isDone
      rw [now, append_written]
      by_cases isMatch : occurrence.name = variableName ∧ property <:+ occurrence.front
      · rw [if_pos isMatch] at added
        rcases isMatch with ⟨isName, start, isFront⟩
        have cut : occurrence.front.take (occurrence.front.length - property.length) =
            start := by
          rw [<- isFront, length_append, Nat.add_sub_cancel, take_left]
        rw [cut] at added
        have later := partly_some added
        have noStart : '$' ∉ scanned ++ (text ++ start) :=
          not_mem_append noDollar (not_mem_append noText
            fun found => noFront (isFront ▸ mem_append_left property found))
        have regrouped : scanned ++ (text ++ (start ++ property)) =
            (scanned ++ (text ++ start)) ++ property := by
          simp only [append_assoc]
        have next := ih splitNext (not_mem_nil : '$' ∉ ([] : Text)) nil_suffix
        rw [nil_append, nil_append] at next
        rw [isName, <- isFront, regrouped, append_assoc _ property,
          strReplaceAll_marked unmarked noStart, next, later]
        simp only [append_assoc]
      · rw [if_neg isMatch] at added
        have later := partly_none added
        have noFrontNext : '$' ∉ scanned ++ (text ++ occurrence.front) :=
          not_mem_append noDollar (not_mem_append noText noFront)
        have differs : ¬ (property <:+ scanned ++ (text ++ occurrence.front) ∧
            variableName <+: occurrence.name ++ fillSegments (partly substituted) rest last) := by
          rintro ⟨inFront, inName⟩
          exact isMatch (matchesOnly before _ rest split isDone
            (inFront.trans (scannedNext occurrence.front)) inName)
        have next := ih splitNext noName (by
          rw [filledNext, now, Occurrence.written]
          refine IsSuffix.trans ?_ (scannedNext _)
          rw [append_cons, <- append_assoc, <- append_assoc]
          exact suffix_append _ _)
        rw [strReplaceAll_skip unmarked noFrontNext differs, next, later, append_written]

lemma replace_occurrences :
    strReplaceAll (fillSegments (partly substituted) segments last)
        [(property ++ '$' :: variableName, replacement)] =
      fillSegments (partly more) segments last := by
  have start : segments = [] ++ segments := rfl
  exact replace_rest adds unmarked plain marked matchesOnly start
    (not_mem_nil : '$' ∉ ([] : Text)) nil_suffix

end

/-- Nothing before the first occurrence of a variable looks like one. -/
def FirstMatches (substituted : Occurrence -> Option Text) (variableName : Text)
    (segments : List (Text × Occurrence)) (last : Text) : Prop :=
  ∀ before segment after, segments = before ++ segment :: after ->
    substituted segment.2 = none ->
    (∀ other ∈ before, other.2.name ≠ variableName) ->
    variableName <+: segment.2.name ++ Template.fillSegments (partly substituted) after last ->
      segment.2.name = variableName

section

variable
  (plain : ∀ occurrence done, substituted occurrence = some done -> '$' ∉ occurrence.front -> '$' ∉ done)
  (marked : SegmentsMarked segments last)
  (present : ∀ segment ∈ segments, segment.2.name = variableName -> substituted segment.2 = none)
  (firstMatches : FirstMatches substituted variableName segments last)

include plain marked present firstMatches

lemma findText_rest (split : segments = before ++ rest)
    (absent : ∀ other ∈ before, other.2.name ≠ variableName)
    {scanned : Text} (noDollar : '$' ∉ scanned) :
    (∃ middle segment after, rest = middle ++ segment :: after ∧
      segment.2.name = variableName ∧
      (∀ other ∈ middle, other.2.name ≠ variableName) ∧
      findText ('$' :: variableName)
          (scanned ++ fillSegments (partly substituted) rest last) =
        some (scanned ++ fillSegments (partly substituted) middle
          (segment.1 ++ segment.2.front)).length) ∨
    findText ('$' :: variableName)
      (scanned ++ fillSegments (partly substituted) rest last) = none := by
  induction rest generalizing before scanned with
  | nil =>
    refine .inr (findText_unmarked ?_)
    exact not_mem_append noDollar marked.last
  | cons segment rest ih =>
    rcases segment with ⟨text, occurrence⟩
    have member : (text, occurrence) ∈ segments := by
      rw [split]
      exact mem_append_right before (.head _)
    have noText := marked.before _ member
    have noFront := marked.front _ member
    have noName := marked.name _ member
    have splitNext : segments = (before ++ [(text, occurrence)]) ++ rest := by
      rw [split, append_assoc]
      rfl
    have noDollarHere : '$' ∉ scanned ++ (text ++ occurrence.front) :=
      not_mem_append noDollar (not_mem_append noText noFront)
    rw [fillSegments]
    by_cases isName : occurrence.name = variableName
    · have now := partly_none (present _ member isName)
      refine .inl ⟨[], (text, occurrence), rest, rfl, isName, forall_mem_nil _, ?_⟩
      rw [now, append_written, isName, findText_marked noDollarHere]
      rfl
    · have absentNext : ∀ other ∈ before ++ [(text, occurrence)], other.2.name ≠ variableName :=
        forall_mem_append.mpr ⟨absent, forall_mem_singleton.mpr isName⟩
      have absentWith {middle : List (Text × Occurrence)}
          (others : ∀ other ∈ middle, other.2.name ≠ variableName) :
          ∀ other ∈ (text, occurrence) :: middle, other.2.name ≠ variableName :=
        forall_mem_cons.mpr ⟨isName, others⟩
      cases isDone : substituted occurrence with
      | some done =>
        have now := partly_some isDone
        have noDollarNext : '$' ∉ scanned ++ (text ++ done) :=
          not_mem_append noDollar (not_mem_append noText (plain _ _ isDone noFront))
        have regrouped (t : Text) : scanned ++ (text ++ (done ++ t)) =
            (scanned ++ (text ++ done)) ++ t := by
          simp only [append_assoc]
        rw [now, regrouped]
        rcases ih splitNext absentNext noDollarNext with
          ⟨middle, segment, after, isRest, named, others, found⟩ | notFound
        · refine .inl ⟨(text, occurrence) :: middle, segment, after, by rw [isRest]; rfl,
            named, absentWith others, ?_⟩
          rw [found, fillSegments, now, regrouped]
        · exact .inr notFound
      | none =>
        have now := partly_none isDone
        have differs : ¬ variableName <+: occurrence.name ++
            fillSegments (partly substituted) rest last :=
          fun begins => isName (firstMatches before _ rest split isDone absent begins)
        rw [now, append_written, findText_skip noDollarHere differs]
        rcases ih splitNext absentNext noName with
          ⟨middle, segment, after, isRest, named, others, found⟩ | notFound
        · refine .inl ⟨(text, occurrence) :: middle, segment, after, by rw [isRest]; rfl,
            named, absentWith others, ?_⟩
          rw [found, fillSegments, now, append_written, map_some]
          congr 1
          simp only [length_append, length_cons]
          omega
        · refine .inr ?_
          rw [notFound]
          rfl

lemma findText_occurrences :
    (∃ before segment after, segments = before ++ segment :: after ∧
      segment.2.name = variableName ∧
      (∀ other ∈ before, other.2.name ≠ variableName) ∧
      findText ('$' :: variableName)
          (fillSegments (partly substituted) segments last) =
        some (fillSegments (partly substituted) before (segment.1 ++ segment.2.front)).length) ∨
    findText ('$' :: variableName) (fillSegments (partly substituted) segments last) = none := by
  have start : segments = [] ++ segments := rfl
  exact findText_rest plain marked present firstMatches start nofun
    (not_mem_nil : '$' ∉ ([] : Text))

end

/-- The dollar signs that are not followed by the name of a variable. -/
def untouched (variableName : Text) : Text -> Nat
  | [] => 0
  | c :: rest =>
    (if c = '$' ∧ ¬ variableName <+: rest then 1 else 0) + untouched variableName rest

lemma untouched_append {front : Text} (noDollar : '$' ∉ front) (t : Text) :
    untouched variableName (front ++ t) = untouched variableName t := by
  induction front with
  | nil => rfl
  | cons c rest ih =>
    have notDollar : c ≠ '$' := fun same => noDollar (same ▸ (.head _))
    rw [cons_append, untouched, if_neg fun both => notDollar both.1, Nat.zero_add,
      ih fun member => noDollar (mem_cons_of_mem c member)]

lemma count_strReplaceAll_le (plain : '$' ∉ replacement) (t : Text) :
    (strReplaceAll t [('$' :: variableName, replacement)]).count '$' <=
      untouched variableName t := by
  have general : ∀ skipped,
      (strReplaceFrom [('$' :: variableName, replacement)] skipped t).count '$' <=
        untouched variableName t := by
    induction t with
    | nil =>
      intro skipped
      cases skipped <;> exact Nat.zero_le _
    | cons c rest ih =>
      intro skipped
      cases skipped with
      | succ skipped =>
        exact Nat.le_trans (ih skipped) (Nat.le_add_left _ _)
      | zero =>
        rw [strReplaceFrom, Absl.longestMatch_single]
        by_cases begins : '$' :: variableName <+: c :: rest
        · rw [if_pos begins]
          rw [count_append, count_eq_zero_of_not_mem plain, Nat.zero_add]
          exact Nat.le_trans (ih _) (Nat.le_add_left _ _)
        · rw [if_neg begins]
          have later := ih 0
          rw [untouched, count_cons]
          by_cases dollar : c = '$'
          · have differs : ¬ variableName <+: rest := by
              intro inRest
              exact begins (cons_prefix_cons.mpr ⟨dollar.symm, inRest⟩)
            rw [dollar, beq_self_eq_true, if_pos rfl, if_pos ⟨rfl, differs⟩]
            omega
          · rw [beq_false_of_ne dollar]
            exact Nat.le_trans later (Nat.le_add_left _ _)
  exact general 0

variable {segments : List (Text × Occurrence)} {last : Text}

variable {segment : Text × Occurrence}

section

variable (adds : Adds substituted more variableName [] replacement)
  (plain : ∀ occurrence done, substituted occurrence = some done -> '$' ∉ occurrence.front -> '$' ∉ done)

include adds plain

lemma untouched_segment {rest : List (Text × Occurrence)}
    (marked : SegmentsMarked (segment :: rest) last) :
    ∃ here left,
      untouched variableName
          (fillSegments (partly substituted) (segment :: rest) last) =
        here + untouched variableName (fillSegments (partly substituted) rest last) ∧
      left + (fillSegments (partly more) rest last).count '$' <=
        (fillSegments (partly more) (segment :: rest) last).count '$' ∧
      here <= left ∧
      (substituted segment.2 = none -> segment.2.name ≠ variableName ->
        variableName <+: segment.2.name ++
          fillSegments (partly substituted) rest last -> here < left) := by
  rcases segment with ⟨text, occurrence⟩
  have noText := marked.before _ (.head _)
  have noFront := marked.front _ (.head _)
  have noName := marked.name _ (.head _)
  have added := adds occurrence
  rw [fillSegments, fillSegments, untouched_append noText, count_append, count_append]
  cases isDone : substituted occurrence with
  | some done =>
    rw [partly_some isDone, untouched_append (plain _ _ isDone noFront)]
    refine ⟨0, 0, (Nat.zero_add _).symm, by omega, Nat.le_refl 0, ?_⟩
    intro impossible
    cases impossible
  | none =>
    rw [isDone] at added
    rw [partly_none isDone, Occurrence.written, append_assoc, cons_append,
      untouched_append noFront, untouched, untouched_append noName]
    by_cases isName : occurrence.name = variableName
    · have begins : variableName <+: occurrence.name ++
          fillSegments (partly substituted) rest last := by
        rw [isName]
        exact prefix_append _ _
      rw [if_neg fun both => both.2 begins]
      exact ⟨0, 0, rfl, by omega, Nat.le_refl 0, fun _ differs => absurd isName differs⟩
    · simp only [isName] at added
      have later := partly_none added
      have one : (partly more occurrence).count '$' = 1 := by
        rw [later, Occurrence.written, count_append, count_cons_self,
          count_eq_zero_of_not_mem noFront, count_eq_zero_of_not_mem noName]
      refine ⟨_, 1, rfl, by omega, ?_, ?_⟩
      · split <;> omega
      · intro _ _ begins
        rw [if_neg fun both => both.2 begins]
        exact Nat.one_pos

lemma untouched_le (marked : SegmentsMarked segments last) :
    untouched variableName (fillSegments (partly substituted) segments last) <=
      (fillSegments (partly more) segments last).count '$' := by
  induction segments with
  | nil =>
    have nothing := @untouched_append variableName last marked.last []
    rw [append_nil] at nothing
    rw [fillSegments, nothing]
    exact Nat.zero_le _
  | cons segment rest ih =>
    rcases untouched_segment adds plain marked with ⟨here, left, isHere, isLeft, fewer, -⟩
    have later := ih marked.tail
    omega

/-- A match at another variable takes a dollar sign too many. -/
lemma untouched_lt (marked : SegmentsMarked segments last) {before after : List (Text × Occurrence)}
    (split : segments = before ++ segment :: after) (left : substituted segment.2 = none)
    (otherName : segment.2.name ≠ variableName) (begins : variableName <+: segment.2.name ++
      fillSegments (partly substituted) after last) :
    untouched variableName (fillSegments (partly substituted) segments last) <
      (fillSegments (partly more) segments last).count '$' := by
  induction before generalizing segments with
  | nil =>
    rw [split, nil_append] at marked ⊢
    rcases untouched_segment adds plain marked with ⟨here, more, isHere, isMore, -, strict⟩
    have fewer := strict left otherName begins
    have later := untouched_le adds plain marked.tail
    omega
  | cons first rest ih =>
    rw [split, cons_append] at marked ⊢
    rcases untouched_segment adds plain marked with ⟨here, more, isHere, isMore, fewer, -⟩
    have later := ih marked.tail rfl
    omega

end

end Ecclesia.Predicates
