import Ecclesia.Predicates.Occurrences

namespace Ecclesia.Predicates

open Absl List
open Template (fillSegments)

/-!
# Variables by their whole names

The variables are substituted one after the other, each by a search for its name behind a dollar
sign.  A name at the beginning of another one is found there, too, so the order matters.  It
does not if no name is found but where it is the whole name of an occurrence.
-/

/-- The text that is replaced together with a variable, that of the first occurrence for several
values. -/
def propertyOf (reading : Reading) (variableName : Text) (varValues : List Text) : Text :=
  if varValues.length < 2 then []
  else ((reading.holes.find? fun occurrence => occurrence.name == variableName).map
    Occurrence.front).getD []

def newExpression (varValues : List Text) (property : Text) : Text :=
  match varValues with
  | [varValue] => varValue
  | _ => anyValue varValues property

/-- The text of an occurrence when some of the variables have been substituted. -/
def valueText (reading : Reading) (done : QueryVariables) (occurrence : Occurrence) :
    Option Text :=
  match done.lookup occurrence.name with
  | none => none
  | some varValues =>
    let property := propertyOf reading occurrence.name varValues
    if occurrence.name = [] ∨ varValues = [] then none
    else if property <:+ occurrence.front then
      some (occurrence.front.take (occurrence.front.length - property.length) ++
        newExpression varValues property)
    else none

/-- The predicate with the values of some of the variables, at whole names only. -/
def filledText (reading : Reading) (done : QueryVariables) : Text :=
  reading.fill (partly (valueText reading done))

/-- After every turn the values are at whole names. -/
def WholeNames (reading : Reading) (order : QueryVariables) : Prop :=
  ∀ done later, order = done ++ later ->
    done.foldl substituteVariable reading.predicate = filledText reading done

/-- In every order the values are at whole names, and the result is the same. -/
def SubstitutesWhole (reading : Reading) (queryVariables : QueryVariables) : Prop :=
  ∀ order : QueryVariables, order.Perm queryVariables ->
    WholeNames reading order ∧
      substituteVariables reading.predicate order =
        substituteVariables reading.predicate queryVariables

/-- In front of a variable is a word that begins behind a blank, or behind parentheses. -/
def OwnWords (reading : Reading) (variableName : Text) : Prop :=
  ∀ before segment after, reading.segments = before ++ segment :: after ->
    segment.2.name = variableName ->
      ' ' ∉ segment.2.front ∧
        (segment.1.getLast? = some ' ' ∨
          (before = [] ∧ (∃ count, segment.1 = List.replicate count '(') ∧
            segment.2.front.head? ≠ some '('))

/-- Whatever has been substituted, the name of another variable is only found where it is the whole
name, but for one with several values, behind another property. -/
structure KeepsNames (reading : Reading) (queryVariables : QueryVariables) : Prop where
  words : ∀ value : Text × List Text, value ∈ queryVariables ->
    2 <= value.2.length -> OwnWords reading value.1
  names : ∀ done (value : Text × List Text) later,
    (done ++ value :: later).Perm queryVariables ->
    value.1 ≠ [] -> value.2 ≠ [] ->
    ∀ before segment after, reading.segments = before ++ segment :: after ->
      valueText reading done segment.2 = none ->
      value.1 <+: segment.2.name ++
        Template.fillSegments (partly (valueText reading done)) after reading.last ->
      segment.2.name = value.1 ∨
        (2 <= value.2.length ∧ (∃ other ∈ before, other.2.name = value.1) ∧
          ¬ propertyOf reading value.1 value.2 <:+
            Template.fillSegments (partly (valueText reading done)) before
              (segment.1 ++ segment.2.front))

section

variable {reading : Reading} {done : QueryVariables} {variableName : Text} {varValues : List Text}

lemma lookup_fresh_name (fresh : variableName ∉ done.map Prod.fst) :
    done.lookup variableName = none := by
  rw [<- Option.not_isSome_iff_eq_none, lookup_isSome_iff]
  exact fresh

lemma lookup_next (fresh : variableName ∉ done.map Prod.fst) :
    (done ++ [(variableName, varValues)]).lookup variableName = some varValues := by
  rw [lookup_append, lookup_fresh_name fresh, lookup_cons_self]
  rfl

lemma lookup_others {name : Text} (other : name ≠ variableName) :
    (done ++ [(variableName, varValues)]).lookup name = done.lookup name := by
  rw [lookup_append, lookup_cons, beq_false_of_ne other, lookup_nil, Option.or_none]

section

variable (fresh : variableName ∉ done.map Prod.fst)

include fresh

lemma valueText_of_fresh {occurrence : Occurrence}
    (isName : occurrence.name = variableName) : valueText reading done occurrence = none := by
  rw [valueText, isName, lookup_fresh_name fresh]

lemma adds_valueText (named : variableName ≠ []) (populated : varValues ≠ []) :
    Adds (valueText reading done) (valueText reading (done ++ [(variableName, varValues)]))
      variableName (propertyOf reading variableName varValues)
      (newExpression varValues (propertyOf reading variableName varValues)) := by
  intro occurrence
  by_cases isName : occurrence.name = variableName
  · rw [valueText_of_fresh fresh isName, valueText, isName, lookup_next fresh]
    simp only [named, populated, or_self, if_false, true_and]
  · have same : valueText reading (done ++ [(variableName, varValues)]) occurrence =
        valueText reading done occurrence := by
      rw [valueText, valueText, lookup_others isName]
    rw [same]
    cases valueText reading done occurrence with
    | some done => rfl
    | none => simp only [isName, false_and, if_false]

lemma valueText_unpopulated (unpopulated : variableName = [] ∨ varValues = []) :
    valueText reading (done ++ [(variableName, varValues)]) = valueText reading done := by
  funext occurrence
  by_cases isName : occurrence.name = variableName
  · rw [valueText_of_fresh fresh isName, valueText, isName, lookup_next fresh]
    simp only [if_pos unpopulated]
  · rw [valueText, valueText, lookup_others isName]

end

lemma filledText_perm {order queryVariables : QueryVariables}
    (distinct : (queryVariables.map Prod.fst).Nodup) (perm : order.Perm queryVariables) :
    filledText reading order = filledText reading queryVariables := by
  have distinctOrder : (order.map Prod.fst).Nodup := (perm.map Prod.fst).nodup_iff.mpr distinct
  have same : valueText reading order = valueText reading queryVariables := by
    funext occurrence
    have found : order.lookup occurrence.name = queryVariables.lookup occurrence.name := by
      apply Option.ext
      intro varValues
      rw [lookup_eq_some_iff_mem distinctOrder, lookup_eq_some_iff_mem distinct, perm.mem_iff]
    rw [valueText, valueText, found]
  rw [filledText, filledText, same]

lemma propertyOf_unmarked (marked : SegmentsMarked reading.segments reading.last)
    (variableName : Text) (varValues : List Text) :
    '$' ∉ propertyOf reading variableName varValues := by
  unfold propertyOf
  split
  · exact not_mem_nil
  · cases found : reading.holes.find? fun occurrence => occurrence.name == variableName with
    | none => exact not_mem_nil
    | some occurrence =>
      rcases mem_map.mp (mem_of_find?_eq_some found) with ⟨segment, member, isHole⟩
      rw [<- isHole]
      exact marked.front segment member

lemma newExpression_unmarked (populated : varValues ≠ []) (plain : ∀ value ∈ varValues, '$' ∉ value)
    {property : Text} (unmarked : '$' ∉ property) : '$' ∉ newExpression varValues property := by
  match varValues, populated with
  | [varValue], _ => exact plain varValue (.head _)
  | first :: second :: others, _ =>
    have several : 2 <= (first :: second :: others).length := by
      rw [length_cons, length_cons]
      omega
    exact mt (dollar_mem_anyValue several plain property).mp unmarked

lemma valueText_unmarked (marked : SegmentsMarked reading.segments reading.last)
    (plain : ∀ value ∈ done, ∀ varValue ∈ value.2,
      '$' ∉ varValue) {occurrence : Occurrence} {t : Text}
    (isText : valueText reading done occurrence = some t) (noFront : '$' ∉ occurrence.front) :
    '$' ∉ t := by
  unfold valueText at isText
  cases found : done.lookup occurrence.name with
  | none =>
    rw [found] at isText
    cases isText
  | some varValues =>
    have member : (occurrence.name, varValues) ∈ done := by
      rcases lookup_eq_some_iff.mp found with ⟨before, after, split, -⟩
      rw [split]
      exact mem_append_right before (.head _)
    rw [found] at isText
    simp only at isText
    split_ifs at isText with unpopulated matching
    have written := Option.some.inj isText
    rw [<- written, mem_append, not_or]
    refine ⟨fun inFront => noFront (mem_of_mem_take inFront), ?_⟩
    exact newExpression_unmarked (fun empty => unpopulated (.inr empty)) (plain _ member)
      (propertyOf_unmarked marked _ _)

end

section

variable {reading : Reading} {variableName : Text} {varValues : List Text}

lemma propertyOf_single (single : varValues.length < 2) :
    propertyOf reading variableName varValues = [] :=
  if_pos single

variable {before after : List (Text × Occurrence)} {segment : Text × Occurrence}

lemma propertyOf_first (several : 2 <= varValues.length)
    (split : reading.segments = before ++ segment :: after) (isName : segment.2.name = variableName)
    (absent : ∀ other ∈ before, other.2.name ≠ variableName) :
    propertyOf reading variableName varValues = segment.2.front := by
  have none : (before.map Prod.snd).find? (fun occurrence => occurrence.name == variableName) =
      none := by
    rw [find?_eq_none]
    intro occurrence member
    rcases mem_map.mp member with ⟨other, inBefore, isOther⟩
    rw [<- isOther, beq_iff_eq]
    exact absent other inBefore
  have found : reading.holes.find? (fun occurrence => occurrence.name == variableName) =
      some segment.2 := by
    rw [Template.holes, split, map_append, find?_append, none, map_cons,
      find?_cons_of_pos (by rw [isName, beq_self_eq_true])]
    rfl
  rw [propertyOf, if_neg (Nat.not_lt.mpr several), found]
  rfl

lemma propertyOf_noBlank (several : 2 <= varValues.length) (words : OwnWords reading variableName) :
    ' ' ∉ propertyOf reading variableName varValues := by
  rw [propertyOf, if_neg (Nat.not_lt.mpr several)]
  cases found : reading.holes.find? fun occurrence => occurrence.name == variableName with
  | none => exact not_mem_nil
  | some occurrence =>
    rcases mem_map.mp (mem_of_find?_eq_some found) with ⟨segment, member, isHole⟩
    rcases append_of_mem member with ⟨before, after, split⟩
    have isName : segment.2.name = variableName := by
      rw [isHole]
      simpa using find?_some found
    rw [<- isHole]
    exact (words before segment after split isName).1

lemma suffix_of_blank {property before front : Text} (noBlank : ' ' ∉ property)
    (inText : property <:+ before ++ ' ' :: front) : property <:+ front := by
  rcases inText with ⟨start, whole⟩
  rcases append_eq_append_iff.mp whole with ⟨taken, -, isProperty⟩ | ⟨more, -, isRest⟩
  · refine absurd ?_ noBlank
    rw [isProperty]
    exact mem_append_right taken (.head _)
  · cases more with
    | nil =>
      refine absurd ?_ noBlank
      rw [nil_append] at isRest
      rw [<- isRest]
      exact (.head _)
    | cons blank others => exact ⟨others, (cons.inj isRest).2.symm⟩

lemma fillSegments_before (f : Occurrence -> Text) (before : List (Text × Occurrence))
    (first second : Text) : fillSegments f before (first ++ second) =
      fillSegments f before first ++ second := by
  rw [Template.fillSegments_last, Template.fillSegments_last f before first, append_assoc]

lemma propertyWithOp_word (words : OwnWords reading variableName) (f : Occurrence -> Text)
    (split : reading.segments = before ++ segment :: after)
    (isName : segment.2.name = variableName) :
    propertyWithOp (fillSegments f before (segment.1 ++ segment.2.front)) = segment.2.front := by
  rcases words before segment after split isName with ⟨noBlank, endsBlank | opening⟩
  · rcases getLast?_eq_some_iff.mp endsBlank with ⟨front, isText⟩
    rw [isText, <- append_cons, fillSegments_before]
    exact propertyWithOp_blank noBlank
  · rcases opening with ⟨empty, ⟨count, isText⟩, starts⟩
    rw [empty, isText]
    exact propertyWithOp_open count noBlank starts

variable {queryVariables done later : QueryVariables} {value : Text × List Text}

section

variable (keeps : KeepsNames reading queryVariables)
  (perm : (done ++ value :: later).Perm queryVariables) (named : value.1 ≠ [])
  (populated : value.2 ≠ [])

include keeps perm named populated

lemma matchesOnly_of_keeps :
    MatchesOnly (valueText reading done) value.1 (propertyOf reading value.1 value.2)
      reading.segments reading.last := by
  intro before segment after split left inFront inName
  rcases keeps.names done value later perm named populated before segment after split left
    inName with isName | ⟨-, -, notInFront⟩
  · refine ⟨isName, ?_⟩
    by_cases single : value.2.length < 2
    · rw [propertyOf_single single]
      exact nil_suffix
    · have several : 2 <= value.2.length := Nat.not_lt.mp single
      have member : value ∈ queryVariables := perm.mem_iff.mp (mem_append_right done (.head _))
      have words := keeps.words value member several
      rcases words before segment after split isName with ⟨-, endsBlank | opening⟩
      · rcases getLast?_eq_some_iff.mp endsBlank with ⟨front, isText⟩
        rw [isText, <- append_cons, fillSegments_before] at inFront
        exact suffix_of_blank (propertyOf_noBlank several words) inFront
      · have first : ∀ other ∈ before, other.2.name ≠ value.1 := by
          intro other impossible
          rw [opening.1] at impossible
          cases impossible
        rw [propertyOf_first several split isName first]
  · exact absurd inFront notInFront

lemma firstMatches_of_keeps :
    FirstMatches (valueText reading done) value.1 reading.segments reading.last := by
  intro before segment after split left absent inName
  rcases keeps.names done value later perm named populated before segment after split left
    inName with isName | ⟨-, ⟨other, member, isOther⟩, -⟩
  · exact isName
  · exact absurd isOther (absent other member)

end

lemma substituteVariable_unpopulated (t : Text) (unpopulated : value.1 = [] ∨ value.2 = []) :
    substituteVariable t value = t := by
  unfold substituteVariable
  rcases unpopulated with unnamed | noValue
  · rw [unnamed]
    rfl
  · rw [noValue]
    split
    · rfl
    · simp only
      split
      · rfl
      · rfl

lemma substituteVariable_one {variableName varValue : Text} (named : variableName ≠ [])
    (t : Text) : substituteVariable t (variableName, [varValue]) =
      strReplaceAll t [('$' :: variableName, varValue)] := by
  cases found : findText ('$' :: variableName) t with
  | none =>
    have absent : ¬ '$' :: variableName <:+: t := fun inside => findText_ne_none inside found
    exact (substituteVariable_absent _ found).trans (strReplaceAll_absent absent).symm
  | some varPos => exact substituteVariable_single named found varValue

section

variable (keeps : KeepsNames reading queryVariables)
  (marked : SegmentsMarked reading.segments reading.last)
  (plain : ∀ value ∈ done, ∀ varValue ∈ value.2, '$' ∉ varValue)
  (fresh : value.1 ∉ done.map Prod.fst) (perm : (done ++ value :: later).Perm queryVariables)

include keeps marked plain fresh perm

lemma substituteVariable_eq (named : value.1 ≠ []) (populated : value.2 ≠ []) :
    substituteVariable (filledText reading done) value =
      strReplaceAll (filledText reading done)
        [(propertyOf reading value.1 value.2 ++ '$' :: value.1,
          newExpression value.2 (propertyOf reading value.1 value.2))] := by
  rcases value with ⟨variableName, varValues⟩
  match varValues, populated with
  | [varValue], _ =>
    exact substituteVariable_one named _
  | first :: second :: others, _ =>
    have several : 2 <= (first :: second :: others).length := by
      rw [length_cons, length_cons]
      omega
    have present : ∀ segment ∈ reading.segments,
        segment.2.name = variableName -> valueText reading done segment.2 = none :=
      fun _ _ isName => valueText_of_fresh fresh isName
    rcases findText_occurrences (fun _ _ => valueText_unmarked marked plain) marked present
        (firstMatches_of_keeps keeps perm named (cons_ne_nil first _)) with
      ⟨before, segment, after, split, isName, absent, found⟩ | notFound
    · have member : (variableName, first :: second :: others) ∈ queryVariables :=
        perm.mem_iff.mp (mem_append_right done (.head _))
      have words := keeps.words _ member several
      have isText : filledText reading done =
          fillSegments (partly (valueText reading done)) before
            (segment.1 ++ segment.2.front) ++ '$' :: (variableName ++
              fillSegments (partly (valueText reading done)) after reading.last) := by
        have unset : partly (valueText reading done) segment.2 = segment.2.written :=
          partly_none (valueText_of_fresh fresh isName)
        rw [filledText, Template.fill, split, Template.fillSegments_append,
          fillSegments, unset, Occurrence.written, isName, <- fillSegments_before]
        simp only [append_assoc, cons_append]
      have cut : propertyWithOp ((filledText reading done).take
          (fillSegments (partly (valueText reading done)) before
            (segment.1 ++ segment.2.front)).length) =
          propertyOf reading variableName (first :: second :: others) := by
        rw [isText, take_left, propertyWithOp_word words _ split isName,
          propertyOf_first several split isName absent]
      change findText _ (filledText reading done) = _ at found
      rw [substituteVariable_multi named found, replaceMultiValueVariables, cut]
      rfl
    · change findText _ (filledText reading done) = _ at notFound
      rw [substituteVariable_absent _ notFound]
      refine (strReplaceAll_absent fun inside => ?_).symm
      have inName : '$' :: variableName <:+: filledText reading done :=
        (suffix_append _ _).isInfix.trans inside
      exact findText_ne_none inName notFound

lemma substituteVariable_filledText :
    substituteVariable (filledText reading done) value = filledText reading (done ++ [value]) := by
  by_cases unpopulated : value.1 = [] ∨ value.2 = []
  · rw [substituteVariable_unpopulated _ unpopulated, filledText, filledText,
      valueText_unpopulated fresh unpopulated]
  · rw [not_or] at unpopulated
    rw [substituteVariable_eq keeps marked plain fresh perm unpopulated.1 unpopulated.2]
    exact replace_occurrences (adds_valueText fresh unpopulated.1 unpopulated.2)
      (propertyOf_unmarked marked _ _) (fun _ _ => valueText_unmarked marked plain) marked
      (matchesOnly_of_keeps keeps perm unpopulated.1 unpopulated.2)

end

end

variable {reading : Reading} {queryVariables : QueryVariables}

lemma substitutesWhole_of_wholeNames (distinct : (queryVariables.map Prod.fst).Nodup)
    (whole : ∀ order : QueryVariables, order.Perm queryVariables -> WholeNames reading order) :
    SubstitutesWhole reading queryVariables := by
  intro order perm
  refine ⟨whole order perm, ?_⟩
  have first := whole order perm order [] (append_nil order).symm
  have second := whole queryVariables (.refl _) queryVariables [] (append_nil queryVariables).symm
  have same : order.foldl substituteVariable reading.predicate =
      queryVariables.foldl substituteVariable reading.predicate := by
    rw [first, second, filledText_perm distinct perm]
  unfold substituteVariables
  rw [same]

/-- A variable whose turn comes has not had one. -/
lemma fresh_of_perm {done later : QueryVariables} {value : Text × List Text}
    (distinct : (queryVariables.map Prod.fst).Nodup)
    (perm : (done ++ value :: later).Perm queryVariables) : value.1 ∉ done.map Prod.fst := by
  have distinctSplit : ((done ++ value :: later).map Prod.fst).Nodup :=
    (perm.map Prod.fst).nodup_iff.mpr distinct
  rw [map_append, nodup_append] at distinctSplit
  intro member
  exact distinctSplit.2.2 _ member _ (.head _) rfl

section

variable (marked : SegmentsMarked reading.segments reading.last)
  (distinct : (queryVariables.map Prod.fst).Nodup)
  (plain : ∀ value ∈ queryVariables, ∀ varValue ∈ value.2, '$' ∉ varValue)

include marked distinct plain

lemma wholeNames_of_keeps {order : QueryVariables} (keeps : KeepsNames reading queryVariables)
    (perm : order.Perm queryVariables) : WholeNames reading order := by
  intro done
  induction done using reverseRecOn with
  | nil => exact fun _ _ => rfl
  | append_singleton done value ih =>
    intro later split
    rw [append_assoc] at split
    have permSplit : (done ++ value :: later).Perm queryVariables := split ▸ perm
    have fresh := fresh_of_perm distinct permSplit
    have plainDone : ∀ value ∈ done, ∀ varValue ∈ value.2, '$' ∉ varValue := fun other member =>
      plain other (permSplit.mem_iff.mp (mem_append_left _ member))
    rw [foldl_append, ih (value :: later) split]
    exact substituteVariable_filledText keeps marked plainDone fresh permSplit

lemma keeps_of_wholeNames (single : ∀ value ∈ queryVariables, value.2.length <= 1)
    (whole : ∀ order : QueryVariables, order.Perm queryVariables -> WholeNames reading order) :
    KeepsNames reading queryVariables := by
  constructor
  · intro value member several
    exact absurd (single value member) (Nat.not_le.mpr several)
  · intro done value later perm named populated before segment after split left inName
    by_contra otherName
    rw [not_or] at otherName
    have member : value ∈ queryVariables := perm.mem_iff.mp (mem_append_right done (.head _))
    have fresh := fresh_of_perm distinct perm
    have plainDone : ∀ value ∈ done, ∀ varValue ∈ value.2, '$' ∉ varValue := fun other inDone =>
      plain other (perm.mem_iff.mp (mem_append_left _ inDone))
    rcases value with ⟨variableName, varValues⟩
    match varValues, populated, single _ member with
    | [varValue], _, _ =>
      have now := whole _ perm done ((variableName, [varValue]) :: later) rfl
      have next := whole _ perm (done ++ [(variableName, [varValue])]) later (by simp)
      rw [foldl_append, now] at next
      change substituteVariable (filledText reading done) (variableName, [varValue]) = _ at next
      rw [substituteVariable_one named] at next
      have adds := @adds_valueText reading done variableName [varValue] fresh named
        (cons_ne_nil varValue [])
      have fewer := untouched_lt adds (fun _ _ => valueText_unmarked marked plainDone) marked
        split left otherName.1 inName
      have most := @count_strReplaceAll_le variableName varValue
        (plain _ member varValue (.head _)) (filledText reading done)
      rw [next] at most
      exact absurd fewer (Nat.not_lt.mpr most)

end

/-- If no name is found but at whole names, every order of the variables has the same result. For
variables with one value each this is necessary. -/
theorem substitutes_whole_iff :
    ∀ (reading : Reading) (queryVariables : QueryVariables),
      SegmentsMarked reading.segments reading.last ->
      (queryVariables.map Prod.fst).Nodup ->
      (∀ value ∈ queryVariables, ∀ varValue ∈ value.2,
        '$' ∉ varValue) ->
        (KeepsNames reading queryVariables -> SubstitutesWhole reading queryVariables) ∧
        ((∀ value ∈ queryVariables, value.2.length <= 1) ->
          (SubstitutesWhole reading queryVariables ↔ KeepsNames reading queryVariables)) := by
  intro reading queryVariables marked distinct plain
  have enough : KeepsNames reading queryVariables -> SubstitutesWhole reading queryVariables := by
    intro keeps
    apply substitutesWhole_of_wholeNames distinct
    exact fun order perm => wholeNames_of_keeps marked distinct plain keeps perm
  refine ⟨enough, fun single => ⟨fun whole => ?_, enough⟩⟩
  exact keeps_of_wholeNames marked distinct plain single fun order perm => (whole order perm).1

/-- `A=$n and B=$m` -/
def twoNames : Reading :=
  ⟨[([], ⟨text "A=", text "n"⟩), (text " and ", ⟨text "B=", text "m"⟩)], []⟩

lemma twoNames_split {before after : List (Text × Occurrence)} {segment : Text × Occurrence}
    (split : twoNames.segments = before ++ segment :: after) :
    (before = [] ∧ segment = ([], ⟨text "A=", text "n"⟩)) ∨
      segment = (text " and ", ⟨text "B=", text "m"⟩) := by
  cases before with
  | nil => exact .inl ⟨rfl, (cons.inj split).1.symm⟩
  | cons first rest =>
    have later := (cons.inj split).2
    cases rest with
    | nil => exact .inr (cons.inj later).1.symm
    | cons second others =>
      have tooLong := (cons.inj later).2
      exact absurd tooLong.symm (append_ne_nil_of_right_ne_nil _ (cons_ne_nil _ _))

/-- One name that stands at the beginning, and one with several values behind a blank. -/
theorem substitutes_whole_names :
    substituteVariables (text "A=$n and B=$m")
        [(text "m", [text "x", text "y"]), (text "n", [text "1"])] =
      substituteVariables (text "A=$n and B=$m")
        [(text "n", [text "1"]), (text "m", [text "x", text "y"])] := by
  have marked : SegmentsMarked twoNames.segments twoNames.last :=
    ⟨by decide, by decide, by decide, by decide⟩
  have results := substitutes_whole_iff twoNames
    [(text "n", [text "1"]), (text "m", [text "x", text "y"])] marked (by decide) (by decide)
  have keeps : KeepsNames twoNames [(text "n", [text "1"]), (text "m", [text "x", text "y"])] := by
    constructor
    · intro value member several before segment after split isName
      rcases twoNames_split split with ⟨empty, isSegment⟩ | isSegment
      · refine ⟨by rw [isSegment]; decide, .inr ⟨empty, ⟨0, by rw [isSegment]; rfl⟩, ?_⟩⟩
        rw [isSegment]
        decide
      · refine ⟨by rw [isSegment]; decide, .inl ?_⟩
        rw [isSegment]
        rfl
    · intro done value later perm named populated before segment after split left begins
      have member : value ∈ [(text "n", [text "1"]), (text "m", [text "x", text "y"])] :=
        perm.mem_iff.mp (List.mem_append_right done (.head _))
      simp only [List.mem_cons, List.not_mem_nil, or_false] at member
      refine .inl ?_
      rcases twoNames_split split with ⟨-, isSegment⟩ | isSegment
      · rcases member with isN | isM
        · rw [isSegment, isN]
        · rw [isSegment, isM] at begins
          exact absurd (List.cons_prefix_cons.mp begins).1 (by decide)
      · rcases member with isN | isM
        · rw [isSegment, isN] at begins
          exact absurd (List.cons_prefix_cons.mp begins).1 (by decide)
        · rw [isSegment, isM]
  exact ((results.1 keeps) _ (List.Perm.swap _ _ _)).2

/-- The shorter name takes the beginning of the longer one if its turn comes first. -/
theorem substitutes_beginning :
    ∃ (predicate : Text) (first second : QueryVariables),
      first.Perm second ∧ (first.map Prod.fst).Nodup ∧
      (∀ value ∈ first, ∀ varValue ∈ value.2, '$' ∉ varValue) ∧
      substituteVariables predicate first = .ok (text "A=1 and B=1ame") ∧
      substituteVariables predicate second = .ok (text "A=1 and B=x") := by
  refine ⟨text "A=$n and B=$name", [(text "n", [text "1"]), (text "name", [text "x"])],
    [(text "name", [text "x"]), (text "n", [text "1"])], List.Perm.swap _ _ _, ?_, ?_, rfl, rfl⟩
  · decide
  · decide

end Ecclesia.Predicates
