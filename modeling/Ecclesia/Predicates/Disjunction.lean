import Ecclesia.Library.Template
import Ecclesia.Predicates.Grammar
import Ecclesia.Predicates.VariableSubstitution

namespace Ecclesia.Predicates

open Absl List
open Template (fillSegments)

/-!
# Variables with several values

A condition on a variable with several values becomes a group of conditions, one for each
value.  The text of the property is cut out in front of the first occurrence of the variable,
and only what has the same text in front of the variable is replaced.
-/

/-! ## Predicates with a variable -/

/-- What stands in front of a variable: a property and its operator. -/
structure PropertyWithOp where
  text : Text
  starts : ∃ c rest, text = c :: rest ∧ c ≠ '('

lemma PropertyWithOp.head_ne (property : PropertyWithOp) : property.text.head? ≠ some '(' := by
  rcases property.starts with ⟨c, rest, isText, notParenthesis⟩
  rw [isText, head?_cons, ne_eq, Option.some.injEq]
  exact notParenthesis

/-- The operands of a predicate with a variable. -/
inductive TemplateAtom where
  | plain (content : Atom)
  | templated (property : PropertyWithOp)

/-- A predicate in which the variable has not been written. -/
abbrev PredicateTemplate := Template Char PropertyWithOp

mutual

def operandTemplate : Operand TemplateAtom -> PredicateTemplate
  | .atom (.plain content) => .literal content.text
  | .atom (.templated property) => .hole property
  | .group after body before =>
    (expressionTemplate body).behind ('(' :: blanks after) ++ .literal (blanks before ++ [')'])

def expressionTemplate : Expression TemplateAtom -> PredicateTemplate
  | .single operand => operandTemplate operand
  | .join left before op after right =>
    expressionTemplate left ++ (operandTemplate right).behind
      (blanks (before + 1) ++ (operatorText op ++ blanks (after + 1)))

end

/-- `prop op $v` -/
def withVariable (variableName property : Text) : Text :=
  property ++ '$' :: variableName

/-- `(prop op v1 or ... or prop op vn)` -/
def anyValue (varValues : List Text) (property : Text) : Text :=
  text "(" ++ strJoin (varValues.map fun value => property ++ value) (text " or ") ++ text ")"

/-- The predicate as it is written. -/
def templateText (variableName : Text) (template : PredicateTemplate) : Text :=
  template.fill fun property => withVariable variableName property.text

/-- The predicate with a group of conditions for every variable. -/
def expandedText (varValues : List Text) (template : PredicateTemplate) : Text :=
  template.fill fun property => anyValue varValues property.text

/-! ## Where a variable stands -/

/-- A text that ends with a blank, up to the parentheses that are opened behind it. -/
def AfterBlank (before : Text) : Prop :=
  ∃ front count, before = front ++ ' ' :: List.replicate count '('

/-- Nothing but opened parentheses, or a text with a blank in front of them. -/
def Opening (before : Text) : Prop :=
  (∃ count, before = List.replicate count '(') ∨ AfterBlank before

/-- Only the first variable may stand where the predicate opens. -/
def OpensSegments : List (Text × PropertyWithOp) -> Prop
  | [] => True
  | segment :: rest => Opening segment.1 ∧ ∀ other ∈ rest, AfterBlank other.1

variable {before : Text}

lemma AfterBlank.append (after : AfterBlank before) (front : Text) :
    AfterBlank (front ++ before) := by
  rcases after with ⟨other, count, isText⟩
  exact ⟨front ++ other, count, by rw [isText, append_assoc]⟩

lemma Opening.append (opening : Opening before) (front : Text) :
    AfterBlank (front ++ ' ' :: before) := by
  rcases opening with ⟨count, isText⟩ | after
  · exact ⟨front, count, by rw [isText]⟩
  · rw [append_cons]
    exact after.append _

variable {template : PredicateTemplate}

lemma OpensSegments.behind (opens : OpensSegments template.segments) (front : Text) :
    ∀ segment ∈ (template.behind (front ++ [' '])).segments, AfterBlank segment.1 := by
  rcases template with ⟨segments, last⟩
  intro segment member
  cases segments with
  | nil => cases member
  | cons first rest =>
    rcases mem_cons.mp member with isFirst | isLater
    · rw [isFirst]
      rw [<- append_cons]
      exact opens.1.append front
    · exact opens.2 segment isLater

variable {segments : List (Text × PropertyWithOp)}

lemma OpensSegments.of_afterBlank (all : ∀ segment ∈ segments, AfterBlank segment.1) :
    OpensSegments segments := by
  cases segments with
  | nil => trivial
  | cons first rest =>
    exact ⟨.inr (all first (.head _)), fun other member => all other (mem_cons_of_mem first member)⟩

lemma OpensSegments.append {first second : List (Text × PropertyWithOp)}
    (opens : OpensSegments first) (all : ∀ segment ∈ second, AfterBlank segment.1) :
    OpensSegments (first ++ second) := by
  cases first with
  | nil => exact .of_afterBlank all
  | cons segment rest =>
    refine ⟨opens.1, fun other member => ?_⟩
    rcases mem_append.mp member with inFirst | inSecond
    · exact opens.2 other inFirst
    · exact all other inSecond

lemma OpensSegments.open (opens : OpensSegments template.segments) :
    OpensSegments (template.behind ['(']).segments := by
  rcases template with ⟨segments, last⟩
  cases segments with
  | nil => trivial
  | cons first rest =>
    refine ⟨?_, opens.2⟩
    rcases opens.1 with ⟨count, isText⟩ | after
    · refine .inl ⟨count + 1, ?_⟩
      rw [isText]
      rfl
    · exact .inr (after.append ['('])

lemma blanks_succ (count : Nat) : blanks (count + 1) = blanks count ++ [' '] := replicate_succ'

mutual

theorem operand_opens (operand : Operand TemplateAtom) :
    OpensSegments (operandTemplate operand).segments := by
  cases operand with
  | atom content =>
    cases content with
    | plain content => trivial
    | templated property =>
      refine ⟨.inl ⟨0, rfl⟩, fun other member => ?_⟩
      cases member
  | group after body before =>
    have inside := expression_opens body
    change OpensSegments (_ ++ [])
    rw [append_nil]
    cases after with
    | zero => exact inside.open
    | succ after =>
      apply OpensSegments.of_afterBlank
      rw [blanks_succ, <- cons_append]
      exact inside.behind _

/-- Every variable but a first one stands behind a blank and opened parentheses. -/
theorem expression_opens (expression : Expression TemplateAtom) :
    OpensSegments (expressionTemplate expression).segments := by
  cases expression with
  | single operand => exact operand_opens operand
  | join left before op after right =>
    rw [expressionTemplate, Template.segments_append, Template.behind_behind]
    apply (expression_opens left).append
    rw [blanks_succ after, <- append_assoc (operatorText op), <- append_assoc, <- append_assoc]
    exact (operand_opens right).behind _

end

/-! ## The text that is cut out -/

variable {property : Text}

lemma propertyWithOp_blank {front : Text} (noBlank : ' ' ∉ property) :
    propertyWithOp (front ++ ' ' :: property) = property := by
  have blank : (front ++ ' ' :: property).contains ' ' = true := by simp
  have cut : (property.reverse ++ ' ' :: front.reverse).takeWhile (· != ' ') =
      property.reverse := by
    rw [takeWhile_append_of_pos]
    · simp
    · intro c member
      rw [bne_iff_ne]
      intro isBlank
      exact noBlank (isBlank ▸ mem_reverse.mp member)
  rw [propertyWithOp, if_pos blank, reverse_append, reverse_cons, append_assoc]
  change (List.takeWhile _ (property.reverse ++ ' ' :: front.reverse)).reverse = property
  rw [cut, reverse_reverse]

lemma propertyWithOp_open (count : Nat) (noBlank : ' ' ∉ property)
    (starts : property.head? ≠ some '(') :
    propertyWithOp (replicate count '(' ++ property) = property := by
  have noBlankAtAll : (replicate count '(' ++ property).contains ' ' = false := by
    simpa using noBlank
  rw [propertyWithOp, noBlankAtAll]
  change List.dropWhile _ _ = _
  rw [dropWhile_append_of_pos]
  · cases property with
    | nil => rfl
    | cons c rest =>
      rw [dropWhile_cons_of_neg]
      simpa using starts
  · intro c member
    rw [beq_iff_eq]
    exact eq_of_mem_replicate member

lemma propertyWithOp_cut (blank : ' ' ∈ property) (before : Text) :
    ∃ lost, lost ≠ [] ∧ property = lost ++ propertyWithOp (before ++ property) := by
  rcases eq_append_cons_of_mem (mem_reverse.mpr blank) with ⟨behind, front, isReverse, noBlank⟩
  have split : property = front.reverse ++ ' ' :: behind.reverse := by
    rw [<- reverse_reverse property, isReverse, reverse_append, reverse_cons, append_assoc]
    rfl
  refine ⟨front.reverse ++ [' '], concat_ne_nil _ _, ?_⟩
  have cut : propertyWithOp (before ++ property) = behind.reverse := by
    rw [split, <- append_assoc]
    apply propertyWithOp_blank
    rw [mem_reverse]
    exact noBlank
  rw [cut, <- append_cons]
  exact split

/-! ## What is replaced -/

/-- All variables have the text of the first one in front of them, which has no blank in it. -/
def OneProperty : List (Text × PropertyWithOp) -> Prop
  | [] => True
  | (before, property) :: rest =>
    (' ' ∉ before ∨ before.getLast? = some ' ') ∧ ' ' ∉ property.text ∧
      ∀ other ∈ rest, other.2.text = property.text

/-- There is no other variable, and the first occurrence tells what is in front of all. -/
def Expandable (template : PredicateTemplate) : Prop :=
  '$' ∉ template.fill PropertyWithOp.text ∧ OneProperty template.segments

/-- The conditions for the first two values. -/
lemma anyValue_eq {varValues : List Text} (several : 2 <= varValues.length) :
    ∃ (value : Text) (rest : Text -> Text), ∀ property : Text,
      anyValue varValues property =
        '(' :: (property ++ (value ++ (text " or " ++ (property ++ rest property)))) := by
  match varValues, several with
  | first :: second :: others, _ =>
    refine ⟨first, fun property => second ++ ((if others = [] then [] else
      text " or " ++ strJoin (others.map fun value => property ++ value) (text " or ")) ++
        text ")"), fun property => ?_⟩
    cases others with
    | nil => simp [anyValue, strJoin, text]
    | cons third rest => simp [anyValue, strJoin, text, append_assoc]

lemma dollar_mem_anyValue {varValues : List Text} (several : 2 <= varValues.length)
    (plain : ∀ value ∈ varValues, '$' ∉ value) (property : Text) :
    '$' ∈ anyValue varValues property ↔ '$' ∈ property := by
  constructor
  · intro member
    by_contra absent
    have general : ∀ values : List Text, (∀ value ∈ values, '$' ∉ value) ->
        '$' ∉ strJoin (values.map fun value => property ++ value) (text " or ") := by
      intro values
      induction values with
      | nil => exact fun _ => not_mem_nil
      | cons value rest ih =>
        intro plainValues
        have here : '$' ∉ property ++ value := by
          rw [mem_append]
          rintro (inProperty | inValue)
          · exact absent inProperty
          · exact plainValues value (.head _) inValue
        have later := ih fun other found => plainValues other (mem_cons_of_mem value found)
        cases rest with
        | nil => simpa [strJoin] using here
        | cons second others =>
          have separator : '$' ∉ text " or " := by decide
          intro found
          have cases : '$' ∈ property ++ value ∨ '$' ∈ text " or " ∨
              '$' ∈ strJoin ((second :: others).map fun value => property ++ value)
                (text " or ") := by
            simpa [strJoin, or_assoc] using found
          rcases cases with inHere | inSeparator | inLater
          · exact here inHere
          · exact separator inSeparator
          · exact later inLater
    have parens : '$' ∉ text "(" ∧ '$' ∉ text ")" := by decide
    rw [anyValue, mem_append, mem_append] at member
    rcases member with (opens | inside) | closes
    · exact parens.1 opens
    · exact general varValues plain inside
    · exact parens.2 closes
  · intro member
    rcases anyValue_eq several with ⟨value, rest, written⟩
    rw [written]
    exact .tail _ (mem_append_left _ member)

lemma replace_sameProperty {variableName replacement : Text} (unmarked : '$' ∉ property)
    {last : Text} (same : ∀ segment ∈ segments, segment.2.text = property)
    (noDollar : '$' ∉ fillSegments PropertyWithOp.text segments last) :
    strReplaceAll
        (fillSegments (fun property => withVariable variableName property.text) segments last)
        [(property ++ '$' :: variableName, replacement)] =
      fillSegments (fun _ => replacement) segments last := by
  induction segments with
  | nil => exact strReplaceAll_unmarked noDollar
  | cons segment rest ih =>
    rw [fillSegments, mem_append, mem_append] at noDollar
    have inBefore : '$' ∉ segment.1 := fun member => noDollar (.inl member)
    have later := ih (fun other member => same other (mem_cons_of_mem segment member))
      fun member => noDollar (.inr (.inr member))
    rw [fillSegments, fillSegments, same segment (.head _),
      withVariable, append_assoc, cons_append,
      strReplaceAll_marked unmarked inBefore, later]

/-- What is replaced with a variable begins with the property or inside of it, or with a
parenthesis. -/
lemma cut_of_afterBlank {front cut : Text} (after : AfterBlank before) (noBlank : ' ' ∉ cut)
    (split : front ++ cut = before ++ property) :
    cut = property ∨
      (∃ lost, lost ≠ [] ∧ front = before ++ lost ∧ property = lost ++ cut) ∨
      (∃ rest, cut = '(' :: rest) := by
  rcases append_eq_append_iff.mp split with ⟨taken, isBefore, isCut⟩ | ⟨lost, isFront, isProperty⟩
  · cases taken with
    | nil => exact .inl isCut
    | cons c others =>
      refine .inr (.inr ?_)
      rcases after with ⟨start, count, isText⟩
      have ends : front ++ (c :: others) = start ++ ' ' :: replicate count '(' :=
        isBefore.symm.trans isText
      have takenNoBlank : ' ' ∉ c :: others := by
        intro member
        exact noBlank (isCut ▸ mem_append_left property member)
      rcases append_eq_append_iff.mp ends with ⟨more, isStart, isTaken⟩ | ⟨more, isFront, isRun⟩
      · refine absurd ?_ takenNoBlank
        rw [isTaken]
        exact mem_append_right more (.head _)
      · have isParenthesis : c = '(' := by
          cases more with
          | nil =>
            refine absurd ?_ takenNoBlank
            rw [nil_append] at isRun
            rw [<- isRun]
            exact (.head _)
          | cons blank rest =>
            have parts := (cons.inj isRun).2
            apply eq_of_mem_replicate
            rw [parts]
            exact mem_append_right rest (.head _)
        exact ⟨others ++ property, by rw [isCut, isParenthesis, cons_append]⟩
  · cases lost with
    | nil => exact .inl isProperty.symm
    | cons c others =>
      exact .inr (.inl ⟨c :: others, cons_ne_nil c others, isFront, isProperty⟩)

section

variable {variableName : Text} {varValues : List Text}

lemma dollar_mem_expanded (several : 2 <= varValues.length)
    (plain : ∀ value ∈ varValues, '$' ∉ value)
    (segments : List (Text × PropertyWithOp)) (last : Text) :
    '$' ∈ fillSegments (fun property => anyValue varValues property.text)
        segments last ↔
      '$' ∈ fillSegments PropertyWithOp.text segments last := by
  simp only [Template.mem_fillSegments, dollar_mem_anyValue several plain]

variable {property : PropertyWithOp}

/-- A group does not begin behind the beginning of its property. -/
lemma nothing_lost (several : 2 <= varValues.length) {before lost cut first second : Text}
    (isProperty : property.text = lost ++ cut)
    (same : (before ++ lost) ++ first = before ++ (anyValue varValues property.text ++ second)) :
    lost = [] := by
  rw [append_assoc] at same
  have behind := append_cancel_left same
  rcases anyValue_eq several with ⟨value, rest, written⟩
  cases lost with
  | nil => rfl
  | cons c others =>
    rcases property.starts with ⟨d, more, isText, notParenthesis⟩
    have isHead : d = c := (cons.inj (isText.symm.trans isProperty)).1
    have isParenthesis : c = '(' := (cons.inj behind).1
    exact absurd (isHead.trans isParenthesis) notParenthesis

lemma sameProperty_of_replaced (several : 2 <= varValues.length)
    (plain : ∀ value ∈ varValues, '$' ∉ value) (unmarked : '$' ∉ property.text)
    (noBlank : ' ' ∉ property.text) {segments : List (Text × PropertyWithOp)} {last : Text}
    (behindBlank : ∀ segment ∈ segments, AfterBlank segment.1)
    (noDollar : '$' ∉ fillSegments PropertyWithOp.text segments last) (replaced : strReplaceAll
        (fillSegments (fun other => withVariable variableName other.text) segments last)
        [(property.text ++ '$' :: variableName, anyValue varValues property.text)] =
      fillSegments (fun other => anyValue varValues other.text) segments last) :
    ∀ segment ∈ segments, segment.2.text = property.text := by
  induction segments with
  | nil =>
    exact forall_mem_nil _
  | cons segment rest ih =>
    rcases segment with ⟨before, other⟩
    have noDollarExpanded := mt (dollar_mem_expanded several plain _ _).mp noDollar
    rw [fillSegments, mem_append, mem_append] at noDollar
    have inBefore : '$' ∉ before ++ other.text := by
      rw [mem_append]
      rintro (member | member)
      · exact noDollar (.inl member)
      · exact noDollar (.inr (.inl member))
    have written : fillSegments (fun other => withVariable variableName other.text)
          ((before, other) :: rest) last =
        (before ++ other.text) ++ '$' :: (variableName ++
          fillSegments (fun other => withVariable variableName other.text) rest last) := by
      rw [fillSegments, withVariable]
      simp only [append_assoc, cons_append]
    rw [written] at replaced
    have isReplaced : property.text <:+ before ++ other.text := by
      by_contra differs
      rw [strReplaceAll_skip unmarked inBefore fun both => differs both.1] at replaced
      rw [<- replaced] at noDollarExpanded
      exact noDollarExpanded (mem_append_right _ (.head _))
    rcases isReplaced with ⟨front, split⟩
    have inFront : '$' ∉ front := by
      intro member
      exact inBefore (split ▸ mem_append_left property.text member)
    rw [<- split, append_assoc, strReplaceAll_marked unmarked inFront, fillSegments] at replaced
    rcases cut_of_afterBlank (behindBlank _ (.head _)) noBlank split with
      same | ⟨lost, present, isFront, isProperty⟩ | ⟨more, opens⟩
    · rw [<- same] at split replaced
      rw [append_cancel_right split] at replaced
      have later := append_cancel_left (append_cancel_left replaced)
      have others := ih
        (fun segment member => behindBlank segment (.tail _ member))
        (fun member => noDollar (.inr (.inr member))) later
      intro segment member
      rcases mem_cons.mp member with isFirst | isLater
      · rw [isFirst]
        exact same.symm
      · exact others segment isLater
    · rw [isFront] at replaced
      exact absurd (nothing_lost several isProperty replaced) present
    · rcases property.starts with ⟨c, others, isText, notParenthesis⟩
      have isHead : c = '(' := (cons.inj (isText.symm.trans opens)).1
      exact absurd isHead notParenthesis

lemma no_parentheses (several : 2 <= varValues.length) {front first second : Text} {count : Nat}
    (same : front ++ (anyValue varValues (replicate count '(' ++ property.text) ++ first) =
      (front ++ replicate count '(') ++ (anyValue varValues property.text ++ second)) :
    count = 0 := by
  cases count with
  | zero => rfl
  | succ count =>
    rcases anyValue_eq several with ⟨value, rest, written⟩
    rw [written, written, append_assoc front] at same
    have behind := append_cancel_left same
    have moved : '(' :: replicate (count + 1) '(' = replicate (count + 1) '(' ++ ['('] := by
      rw [<- replicate_succ, replicate_succ']
    have regrouped (t : Text) : '(' :: (replicate (count + 1) '(' ++ t) =
        replicate (count + 1) '(' ++ '(' :: t := by
      rw [<- cons_append, moved, append_assoc]
      rfl
    simp only [cons_append, append_assoc] at behind
    rw [regrouped] at behind
    have inside := (cons.inj (append_cancel_left behind)).2
    have doubled := append_cancel_left (append_cancel_left (append_cancel_left inside))
    rcases property.starts with ⟨c, others, isText, notParenthesis⟩
    rw [isText] at doubled
    have isHead : '(' = c := (cons.inj doubled).1
    exact absurd isHead.symm notParenthesis

/-- The turn of the variable looks at what stands in front of its first occurrence. -/
lemma substituteVariable_several (named : variableName ≠ []) (several : 2 <= varValues.length)
    {before : Text} (inBefore : '$' ∉ before) (rest : Text) :
    substituteVariable (before ++ '$' :: (variableName ++ rest)) (variableName, varValues) =
      strReplaceAll (before ++ '$' :: (variableName ++ rest))
        [(propertyWithOp before ++ '$' :: variableName,
          anyValue varValues (propertyWithOp before))] := by
  match varValues, several with
  | first :: second :: others, _ =>
    rw [substituteVariable_multi named (@findText_marked '$' variableName before rest inBefore),
      replaceMultiValueVariables, take_left]
    rfl

end

/-! ## Exactly one text -/

lemma propertyWithOp_first (opening : Opening before)
    (placed : ' ' ∉ before ∨ before.getLast? = some ' ') (property : PropertyWithOp)
    (noBlank : ' ' ∉ property.text) : propertyWithOp (before ++ property.text) = property.text := by
  rcases placed with noneBefore | endsBlank
  · rcases opening with ⟨count, isText⟩ | ⟨front, count, isText⟩
    · rw [isText]
      exact propertyWithOp_open count noBlank property.head_ne
    · refine absurd ?_ noneBefore
      rw [isText]
      exact mem_append_right front (.head _)
  · rcases getLast?_eq_some_iff.mp endsBlank with ⟨front, isText⟩
    rw [isText, <- append_cons]
    exact propertyWithOp_blank noBlank

section

variable {variableName : Text} {varValues : List Text}

lemma templateText_cons (before : Text) (property : PropertyWithOp)
    (rest : List (Text × PropertyWithOp)) (last : Text) :
    templateText variableName ⟨(before, property) :: rest, last⟩ =
      (before ++ property.text) ++ '$' :: (variableName ++
        templateText variableName ⟨rest, last⟩) := by
  change before ++ ((property.text ++ '$' :: variableName) ++
    templateText variableName ⟨rest, last⟩) = _
  simp only [append_assoc, cons_append]

lemma placed_of_replaced (several : 2 <= varValues.length) {before : Text}
    (opening : Opening before) {property : PropertyWithOp} {first second : Text}
    (inBefore : '$' ∉ before ++ property.text)
    (replaced : strReplaceAll ((before ++ property.text) ++ '$' :: (variableName ++ first))
        [(propertyWithOp (before ++ property.text) ++ '$' :: variableName,
          anyValue varValues (propertyWithOp (before ++ property.text)))] =
      before ++ (anyValue varValues property.text ++ second)) :
    (' ' ∉ before ∨ before.getLast? = some ' ') ∧ ' ' ∉ property.text := by
  -- What the replacement does, once the text is split around what is cut out.
  have unfolded : ∀ front, before ++ property.text =
        front ++ propertyWithOp (before ++ property.text) ->
      ∃ later, front ++ (anyValue varValues (propertyWithOp (before ++ property.text)) ++
        later) = before ++ (anyValue varValues property.text ++ second) := by
    intro front split
    have noDollar : '$' ∉ front ++ propertyWithOp (before ++ property.text) := split ▸ inBefore
    rw [mem_append, not_or] at noDollar
    generalize propertyWithOp (before ++ property.text) = cut at *
    rw [split, append_assoc, strReplaceAll_marked noDollar.2 noDollar.1] at replaced
    exact ⟨_, replaced⟩
  by_cases blank : ' ' ∈ property.text
  · rcases propertyWithOp_cut blank before with ⟨lost, present, isProperty⟩
    have split : before ++ property.text =
        (before ++ lost) ++ propertyWithOp (before ++ property.text) := by
      rw [append_assoc, <- isProperty]
    rcases unfolded _ split with ⟨later, same⟩
    exact absurd (nothing_lost several isProperty same) present
  · refine ⟨?_, blank⟩
    rcases opening with ⟨count, isText⟩ | ⟨front, count, isText⟩
    · refine .inl ?_
      rw [isText]
      intro member
      exact absurd (eq_of_mem_replicate member) (by decide)
    · refine .inr ?_
      have noBlank : ' ' ∉ replicate count '(' ++ property.text := by
        rw [mem_append]
        rintro (member | member)
        · exact absurd (eq_of_mem_replicate member) (by decide)
        · exact blank member
      have cut : propertyWithOp (before ++ property.text) =
          replicate count '(' ++ property.text := by
        rw [isText, append_assoc]
        exact propertyWithOp_blank noBlank
      have split : before ++ property.text =
          (front ++ [' ']) ++ propertyWithOp (before ++ property.text) := by
        rw [cut, isText, <- append_cons, append_assoc, cons_append]
      rcases unfolded _ split with ⟨later, same⟩
      have isBefore : before = (front ++ [' ']) ++ replicate count '(' := by
        rw [isText, <- append_cons]
      rw [cut] at same
      nth_rewrite 1 [isBefore] at same
      have none := no_parentheses several same
      rw [isText, none]
      exact getLast?_concat

/-- The turn leaves the groups exactly if the first occurrence tells what precedes every variable.
-/
lemma expanded_iff (named : variableName ≠ []) (several : 2 <= varValues.length)
    (plain : ∀ value ∈ varValues, '$' ∉ value) {template : PredicateTemplate}
    (opens : OpensSegments template.segments) :
    (substituteVariable (templateText variableName template) (variableName, varValues) =
        expandedText varValues template ∧
      '$' ∉ expandedText varValues template) ↔ Expandable template := by
  rcases template with ⟨segments, last⟩
  have dollars := dollar_mem_expanded several plain segments last
  by_cases noDollar : '$' ∈ fillSegments PropertyWithOp.text segments last
  · constructor
    · exact fun both => absurd (dollars.mpr noDollar) both.2
    · exact fun expandable => absurd noDollar expandable.1
  · have noDollarLeft : '$' ∉ expandedText varValues ⟨segments, last⟩ := mt dollars.mp noDollar
    rw [and_iff_left noDollarLeft, Expandable,
      and_iff_right (show '$' ∉ Template.fill PropertyWithOp.text ⟨segments, last⟩ from noDollar)]
    cases segments with
    | nil =>
      have notFound := @findText_unmarked '$' variableName last noDollar
      exact iff_of_true (substituteVariable_absent varValues notFound) trivial
    | cons segment rest =>
      rcases segment with ⟨before, property⟩
      rw [fillSegments, mem_append, mem_append, not_or, not_or] at noDollar
      rcases noDollar with ⟨notBefore, notProperty, notRest⟩
      have inBefore : '$' ∉ before ++ property.text := by
        rw [mem_append, not_or]
        exact ⟨notBefore, notProperty⟩
      rw [templateText_cons, substituteVariable_several named several inBefore]
      constructor
      · intro replaced
        have placed := placed_of_replaced several opens.1 inBefore replaced
        refine ⟨placed.1, placed.2, ?_⟩
        rw [propertyWithOp_first opens.1 placed.1 property placed.2, append_assoc,
          strReplaceAll_marked notProperty notBefore] at replaced
        have later := append_cancel_left (append_cancel_left replaced)
        exact sameProperty_of_replaced several plain notProperty placed.2 opens.2 notRest later
      · rintro ⟨placed, noBlank, same⟩
        rw [propertyWithOp_first opens.1 placed property noBlank, append_assoc,
          strReplaceAll_marked notProperty notBefore]
        change before ++ (_ ++ strReplaceAll (fillSegments _ rest last) _) = _
        rw [replace_sameProperty notProperty same notRest,
          Template.fillSegments_congr (g := fun other => anyValue varValues other.text)]
        · rfl
        · intro segment member
          rw [same segment member]

end

/-- A variable with several values becomes a group for each of its occurrences, if the first
occurrence tells what is in front of all of them. Otherwise the turn leaves another text, or a
dollar sign. -/
theorem expands_groups_iff :
    ∀ (expression : Expression TemplateAtom) (variableName : Text) (varValues : List Text),
      variableName ≠ [] -> 2 <= varValues.length ->
      (∀ value ∈ varValues, '$' ∉ value) ->
        ((substituteVariable (templateText variableName (expressionTemplate expression))
              (variableName, varValues) =
            expandedText varValues (expressionTemplate expression) ∧
          '$' ∉ expandedText varValues (expressionTemplate expression)) ↔
            Expandable (expressionTemplate expression)) ∧
        (Expandable (expressionTemplate expression) ->
          ∃ newPredicate,
            substituteVariables (templateText variableName (expressionTemplate expression))
              [(variableName, varValues)] = .ok newPredicate ∧
            ∀ (lib : NumericLibrary) (jsonObject : Json) (nodeIndex : Int)
                (nodeSetSize : Nat),
              applyPredicateRule lib jsonObject ⟨newPredicate, nodeIndex, nodeSetSize⟩ =
                applyPredicateRule lib jsonObject
                  ⟨expandedText varValues (expressionTemplate expression), nodeIndex,
                    nodeSetSize⟩) := by
  intro expression variableName varValues named several plain
  have exact := expanded_iff named several plain (expression_opens expression)
  refine ⟨exact, fun expandable => ?_⟩
  rcases exact.mpr expandable with ⟨ran, noDollar⟩
  exact ⟨_, substituteVariables_eq ran noDollar, fun _ _ _ _ => rfl⟩

def onProperty (property : String)
    (starts : ∃ c rest, text property = c :: rest ∧ c ≠ '(') : Operand TemplateAtom :=
  .atom (.templated ⟨text property, starts⟩)

/-- `B and (A=$v)` -/
def insideGroup : Expression TemplateAtom :=
  .join (.single (.atom (.plain ⟨text "B", rfl, rfl, ⟨'B', [], rfl, by decide, rfl⟩,
    ⟨'B', [], rfl, rfl⟩, .inr (by decide)⟩))) 0 .and 0
    (.group 0 (.single (onProperty "A=" ⟨'A', text "=", rfl, by decide⟩)) 0)

/-- `A=$v and B=$v` -/
def onTwoProperties : Expression TemplateAtom :=
  .join (.single (onProperty "A=" ⟨'A', text "=", rfl, by decide⟩)) 0 .and 0
    (onProperty "B=" ⟨'B', text "=", rfl, by decide⟩)

/-- `A=$v and ( A=$v)` -/
def onOneProperty : Expression TemplateAtom :=
  .join (.single (onProperty "A=" ⟨'A', text "=", rfl, by decide⟩)) 0 .and 0
    (.group 1 (.single (onProperty "A=" ⟨'A', text "=", rfl, by decide⟩)) 0)

/-- The variable twice on one property, once in a group. -/
theorem expands_groups_twice :
    ∃ newPredicate,
      substituteVariables (text "A=$v and ( A=$v)") [(text "v", [text "1", text "2"])] =
        .ok newPredicate ∧
      applyPredicateRule integerLibrary .null ⟨newPredicate, 0, 1⟩ =
        applyPredicateRule integerLibrary .null
          ⟨text "(A=1 or A=2) and ( (A=1 or A=2))", 0, 1⟩ := by
  have results := expands_groups_iff onOneProperty (text "v") [text "1", text "2"]
    (by decide) (by decide) (by decide)
  have expandable : Expandable (expressionTemplate onOneProperty) := by
    refine ⟨by decide, .inl (by decide), by decide, fun other member => ?_⟩
    rw [List.mem_singleton.mp member]
  rcases results.2 expandable with ⟨newPredicate, ran, sameValue⟩
  exact ⟨newPredicate, ran, sameValue integerLibrary .null 0 1⟩

/-- A parenthesis in front of the property is written for every value, and a second property gets
lost. -/
theorem expands_no_group :
    (∃ newPredicate,
      substituteVariables (templateText (text "v") (expressionTemplate insideGroup))
        [(text "v", [text "1", text "2"])] = .ok newPredicate ∧
      (∀ value, applyPredicateRule integerLibrary
        (.object [(text "A", .string (text "1")), (text "B", .null)]) ⟨newPredicate, 0, 1⟩ ≠
          .ok value) ∧
      applyPredicateRule integerLibrary
        (.object [(text "A", .string (text "1")), (text "B", .null)])
        ⟨expandedText [text "1", text "2"] (expressionTemplate insideGroup), 0, 1⟩ = .ok true) ∧
    (∃ newPredicate,
      substituteVariables (templateText (text "v") (expressionTemplate onTwoProperties))
        [(text "v", [text "1", text "2"])] = .ok newPredicate ∧
      applyPredicateRule integerLibrary
        (.object [(text "A", .string (text "1")), (text "B", .string (text "3"))])
        ⟨newPredicate, 0, 1⟩ = .ok true ∧
      applyPredicateRule integerLibrary
        (.object [(text "A", .string (text "1")), (text "B", .string (text "3"))])
        ⟨expandedText [text "1", text "2"] (expressionTemplate onTwoProperties), 0, 1⟩ =
          .ok false) := by
  constructor
  · refine ⟨text "B and ((A=1 or (A=2))", rfl, ?_, rfl⟩
    intro value same
    cases same
  · exact ⟨text "(A=1 or A=2)", rfl, rfl, rfl⟩

end Ecclesia.Predicates
