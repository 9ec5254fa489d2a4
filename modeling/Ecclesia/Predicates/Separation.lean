import Ecclesia.Predicates.Parsing

namespace Ecclesia.Predicates

open Absl List

/-!
# When the expressions of a predicate are kept apart

A predicate is written with comparisons and existence checks, joined by connectives and put in
parentheses.  `CreatePredicateObject` first asks whether a text is one relational expression.
The right side of a comparison may have blanks and parentheses in it, so a whole combination
can pass for one comparison.  This happens exactly if its first expression is the only one with
relational signs.
-/

/-! ## What is written -/

/-- No blank of a text is outside of an escape, and no escape is left open. -/
def hasEscapedBlanks : Bool -> Text -> Bool
  | escaped, [] => !escaped
  | true, _ :: rest => hasEscapedBlanks false rest
  | false, c :: rest =>
    if c = '\\' then hasEscapedBlanks true rest else c != ' ' && hasEscapedBlanks false rest

def isParenthesis (c : Char) : Bool :=
  c == '(' || c == ')'

/-- `lhs op rhs` without unescaped blanks or parentheses. -/
structure ComparisonClause where
  lhs : Text
  relOperator : Text
  rhs : Text
  present : lhs ≠ [] ∧ rhs ≠ []
  left : ∀ c ∈ lhs, isLeftCharacter c = true
  relational : relOperator ∈ relationSigns
  right : ∀ c ∈ rhs, isRelationSign c = false
  unparenthesized : ∀ c ∈ lhs ++ rhs, isParenthesis c = false
  whole : hasEscapedBlanks false (lhs ++ relOperator ++ rhs) = true

/-- A property that is present or absent. -/
structure ExistenceCheck where
  negated : Bool
  name : Text
  named : matchesPropertyName name = true

inductive Clause where
  | comparison (sides : ComparisonClause)
  | existence (check : ExistenceCheck)

mutual

inductive ClauseOperand where
  | clause (clause : Clause)
  | group (body : ClauseSequence)

/-- Operands with the connectives between them. -/
inductive ClauseSequence where
  | single (operand : ClauseOperand)
  | join (first : ClauseOperand) (op : Connective) (rest : ClauseSequence)

end

namespace Clause

def text : Clause -> Text
  | .comparison sides => sides.lhs ++ sides.relOperator ++ sides.rhs
  | .existence check => if check.negated then '!' :: check.name else check.name

def expression : Clause -> RelationalExpression
  | .comparison sides => ⟨sides.lhs, sides.relOperator, sides.rhs, []⟩
  | .existence check => ⟨[], [], [], (Clause.existence check).text⟩

/-- A clause without relational signs. -/
def isPlain : Clause -> Bool
  | .comparison _ => false
  | .existence check => !check.negated

end Clause

mutual

def ClauseOperand.text : ClauseOperand -> Text
  | .clause clause => clause.text
  | .group body => '(' :: (body.text ++ [')'])

/-- The predicate as it is written. -/
def ClauseSequence.text : ClauseSequence -> Text
  | .single operand => operand.text
  | .join first op rest => first.text ++ (connectiveText op ++ rest.text)

end

mutual

def ClauseOperand.clauses : ClauseOperand -> List Clause
  | .clause clause => [clause]
  | .group body => body.clauses

def ClauseSequence.clauses : ClauseSequence -> List Clause
  | .single operand => operand.clauses
  | .join first _ rest => first.clauses ++ rest.clauses

end

def ClauseSequence.operators : ClauseSequence -> List Text
  | .single _ => []
  | .join _ op rest => connectiveText op :: rest.operators

mutual

def ClauseOperand.object : ClauseOperand -> PredicateObject
  | .clause clause => .leaf clause.expression
  | .group body => body.object

/-- The predicate object that says what is written.  A clause alone is no combination. -/
def ClauseSequence.object : ClauseSequence -> PredicateObject
  | .single (.clause clause) => .leaf clause.expression
  | .single (.group body) => .group [] [body.object]
  | .join first op rest => .group (connectiveText op :: rest.operators) (first.object :: rest.objects)

def ClauseSequence.objects : ClauseSequence -> List PredicateObject
  | .single operand => [operand.object]
  | .join first _ rest => first.object :: rest.objects

end

mutual

def PredicateObject.leaves : PredicateObject -> List RelationalExpression
  | .mk relationalExpression _ [] => [relationalExpression]
  | .mk _ _ (first :: rest) => leavesOfChildren (first :: rest)

def leavesOfChildren : List PredicateObject -> List RelationalExpression
  | [] => []
  | child :: rest => child.leaves ++ leavesOfChildren rest

end

/-! ## Where a combination passes for a comparison -/

/-- The first of some clauses is a comparison, and no other has relational signs. -/
def OneComparison : List Clause -> Prop
  | .comparison _ :: rest => ∀ clause ∈ rest, clause.isPlain = true
  | _ => False

def ClauseSequence.Swallows : ClauseSequence -> Prop
  | .single (.clause _) => False
  | sequence => OneComparison sequence.clauses

mutual

def ClauseOperand.Separate : ClauseOperand -> Prop
  | .clause _ => True
  | .group body => body.Separate

/-- Neither the predicate nor a group in it reads like one comparison. -/
def ClauseSequence.Separate : ClauseSequence -> Prop
  | .single operand => ¬ (ClauseSequence.single operand).Swallows ∧ operand.Separate
  | .join first op rest =>
    ¬ (ClauseSequence.join first op rest).Swallows ∧ first.Separate ∧ rest.SeparateInside

/-- No group in a part of a combination reads like one comparison. -/
def ClauseSequence.SeparateInside : ClauseSequence -> Prop
  | .single operand => operand.Separate
  | .join first _ rest => first.Separate ∧ rest.SeparateInside

end

/-! ## The characters of a clause -/

lemma relationSign_of_mem {relOperator : Text} (relational : relOperator ∈ relationSigns) :
    relOperator ≠ [] ∧ ∀ c ∈ relOperator, isRelationSign c = true := by
  have signs : ∀ sign ∈ relationSigns, sign ≠ [] ∧ sign.all isRelationSign = true := by
    decide
  rcases signs relOperator relational with ⟨present, all⟩
  exact ⟨present, all_eq_true.mp all⟩

variable {c : Char}

lemma parenthesis_of_relationSign (sign : isRelationSign c = true) :
    isParenthesis c = false ∧ isLeftCharacter c = false := by
  have known : c = '~' ∨ c = '<' ∨ c = '=' ∨ c = '>' ∨ c = '!' := by
    simpa [isRelationSign, or_assoc] using sign
  rcases known with rfl | rfl | rfl | rfl | rfl
  · exact ⟨rfl, rfl⟩
  · exact ⟨rfl, rfl⟩
  · exact ⟨rfl, rfl⟩
  · exact ⟨rfl, rfl⟩
  · exact ⟨rfl, rfl⟩

lemma propertyCharacter_plain (plain : isPropertyCharacter c = true) :
    isRelationSign c = false ∧ isParenthesis c = false ∧ isLeftCharacter c = true ∧ c ≠ ' ' ∧
      c ≠ '\\' := by
  have other : c ∉ text "~<=>! \t\n\r()\\" := by
    intro member
    have none : (text "~<=>! \t\n\r()\\").any isPropertyCharacter = false := by decide
    rw [forall_of_none none c member] at plain
    cases plain
  have notPage : c.toNat ≠ 12 := by
    intro page
    have isPage : c = Char.ofNat 12 := by
      rw [<- page]
      exact (Char.ofNat_toNat c).symm
    rw [isPage] at plain
    revert plain
    decide
  have listed : text "~<=>! \t\n\r()\\" =
      ['~', '<', '=', '>', '!', ' ', '\t', '\n', '\r', '(', ')', '\\'] := rfl
  simp only [listed, mem_cons, not_or] at other
  simp only [isRelationSign, isParenthesis, isLeftCharacter, isRelationSpace,
    beq_eq_false_iff_ne.mpr, ne_eq, other, notPage, not_false_eq_true, Bool.or_self,
    Bool.not_false, Bool.and_self, and_self]

lemma upperLetter_propertyCharacter (upper : isUpperLetter c = true) :
    isPropertyCharacter c = true := by
  unfold isUpperLetter at upper
  unfold isPropertyCharacter asciiIsAlnum asciiIsAlpha
  rw [upper]
  simp

lemma mem_matchesPropertyName {name : Text} (named : matchesPropertyName name = true) :
    name ≠ [] ∧ ∀ c ∈ name, isPropertyCharacter c = true := by
  cases name with
  | nil => cases named
  | cons first rest =>
    rcases Bool.and_eq_true_iff.mp named with ⟨upper, others⟩
    refine ⟨cons_ne_nil first rest, ?_⟩
    intro c member
    rcases mem_cons.mp member with here | later
    · rw [here]
      exact upperLetter_propertyCharacter upper
    · exact all_eq_true.mp others c later

variable {t : Text}

lemma hasEscapedBlanks_plain (plain : ∀ c ∈ t, c ≠ ' ' ∧ c ≠ '\\') :
    hasEscapedBlanks false t = true := by
  induction t with
  | nil => rfl
  | cons c rest ih =>
    rcases plain c mem_cons_self with ⟨notBlank, notBackslash⟩
    have later := ih fun other member => plain other (mem_cons_of_mem c member)
    simp [hasEscapedBlanks, notBlank, notBackslash, later]

namespace Clause

variable (clause : Clause)

lemma isPlain_iff : (∀ c ∈ clause.text, isRelationSign c = false) ↔ clause.isPlain = true := by
  cases clause with
  | comparison sides =>
    rcases relationSign_of_mem sides.relational with ⟨present, signs⟩
    rcases exists_mem_of_ne_nil _ present with ⟨c, member⟩
    constructor
    · intro none
      have impossible := none c (mem_append_left _ (mem_append_right sides.lhs member))
      rw [signs c member] at impossible
      cases impossible
    · intro impossible
      cases impossible
  | existence check =>
    have names := (mem_matchesPropertyName check.named).2
    cases negated : check.negated with
    | false =>
      simp only [Clause.text, negated, isPlain, Bool.not_false]
      exact iff_of_true (fun c member => (propertyCharacter_plain (names c member)).1) trivial
    | true =>
      simp only [Clause.text, negated, isPlain, Bool.not_true, Bool.false_eq_true, iff_false]
      intro none
      have impossible := none '!' mem_cons_self
      cases impossible

lemma unparenthesized : ∀ c ∈ clause.text, isParenthesis c = false := by
  cases clause with
  | comparison sides =>
    intro c member
    have inside := sides.unparenthesized c
    simp only [Clause.text, mem_append] at member inside
    rcases member with (isLeft | isSign) | isRight
    · exact inside (.inl isLeft)
    · have sign := (relationSign_of_mem sides.relational).2 c isSign
      exact (parenthesis_of_relationSign sign).1
    · exact inside (.inr isRight)
  | existence check =>
    have names := (mem_matchesPropertyName check.named).2
    intro c member
    rw [Clause.text] at member
    split at member
    · rcases mem_cons.mp member with isMark | isName
      · rw [isMark]
        rfl
      · exact (propertyCharacter_plain (names c isName)).2.1
    · exact (propertyCharacter_plain (names c member)).2.1

lemma whole : hasEscapedBlanks false clause.text = true := by
  cases clause with
  | comparison sides => exact sides.whole
  | existence check =>
    have names := (mem_matchesPropertyName check.named).2
    apply hasEscapedBlanks_plain
    intro c member
    rw [Clause.text] at member
    split at member
    · rcases mem_cons.mp member with isMark | isName
      · rw [isMark]
        decide
      · exact (propertyCharacter_plain (names c isName)).2.2.2
    · exact (propertyCharacter_plain (names c member)).2.2.2

lemma text_ne_nil : clause.text ≠ [] := by
  cases clause with
  | comparison sides =>
    intro empty
    simp only [Clause.text, append_eq_nil_iff] at empty
    exact sides.present.1 empty.1.1
  | existence check =>
    rw [Clause.text]
    split
    · exact cons_ne_nil _ _
    · exact (mem_matchesPropertyName check.named).1

end Clause

/-! ## How a clause is read -/

lemma matchRelationalExpression_append {before relOperator after : Text}
    (left : ∀ c ∈ before, isLeftCharacter c = true)
    (signs : ∀ c ∈ relOperator, isRelationSign c = true) (present : relOperator ≠ [])
    (apart : ∀ c rest, after = c :: rest -> isRelationSign c = false) :
    matchRelationalExpression (before ++ (relOperator ++ after)) =
      if !before.isEmpty && relationSigns.contains relOperator && !after.isEmpty &&
          after.all fun c => !isRelationSign c then
        some ⟨before, relOperator, after, []⟩
      else none := by
  have notLeft : ∀ c ∈ relOperator, isLeftCharacter c = false :=
    fun c member => (parenthesis_of_relationSign (signs c member)).2
  have stops : (relOperator ++ after).takeWhile isLeftCharacter = [] ∧
      (relOperator ++ after).dropWhile isLeftCharacter = relOperator ++ after := by
    rcases exists_cons_of_ne_nil present with ⟨first, rest, isOperator⟩
    rw [isOperator]
    have notFirst := notLeft first (isOperator ▸ mem_cons_self)
    exact ⟨takeWhile_cons_of_neg (by simp [notFirst]), dropWhile_cons_of_neg (by simp [notFirst])⟩
  have ends : after.takeWhile isRelationSign = [] ∧ after.dropWhile isRelationSign = after := by
    cases after with
    | nil => exact ⟨rfl, rfl⟩
    | cons c rest =>
      have notSign := apart c rest rfl
      exact ⟨takeWhile_cons_of_neg (by simp [notSign]), dropWhile_cons_of_neg (by simp [notSign])⟩
  unfold matchRelationalExpression
  simp only [takeWhile_append_of_pos left, dropWhile_append_of_pos left, stops.1,
    stops.2, takeWhile_append_of_pos signs, dropWhile_append_of_pos signs, ends.1,
    ends.2, append_nil]

/-- Nothing is found when no sign comes directly after the left side. -/
lemma matchRelationalExpression_none {before after : Text}
    (left : ∀ c ∈ before, isLeftCharacter c = true)
    (apart : ∀ c rest, after = c :: rest -> isLeftCharacter c = false ∧ isRelationSign c = false) :
    matchRelationalExpression (before ++ after) = none := by
  have stops : after.takeWhile isLeftCharacter = [] ∧ after.dropWhile isLeftCharacter = after ∧
      after.takeWhile isRelationSign = [] := by
    cases after with
    | nil => exact ⟨rfl, rfl, rfl⟩
    | cons c rest =>
      rcases apart c rest rfl with ⟨notLeft, notSign⟩
      exact ⟨takeWhile_cons_of_neg (by simp [notLeft]),
        dropWhile_cons_of_neg (by simp [notLeft]),
        takeWhile_cons_of_neg (by simp [notSign])⟩
  have noOperator : relationSigns.contains [] = false := by decide
  unfold matchRelationalExpression
  simp only [dropWhile_append_of_pos left, stops.2.1, stops.2.2, noOperator, Bool.and_false,
    Bool.false_and, Bool.false_eq_true, if_false]

lemma mem_matchesPropertyExistence (matched : matchesPropertyExistence t = true) :
    ∀ c ∈ t, c = '!' ∨ isPropertyCharacter c = true := by
  intro c member
  unfold matchesPropertyExistence at matched
  split at matched
  next rest =>
    rcases mem_cons.mp member with isMark | later
    · exact .inl isMark
    · exact .inr ((mem_matchesPropertyName matched).2 c later)
  next => exact .inr ((mem_matchesPropertyName matched).2 c member)

lemma ExistenceCheck.matches (check : ExistenceCheck) :
    matchesPropertyExistence (Clause.existence check).text = true := by
  have named := check.named
  rw [Clause.text]
  cases check.negated with
  | true => exact named
  | false =>
    simp only [Bool.false_eq_true, if_false]
    unfold matchesPropertyExistence
    split
    next rest isName =>
      rw [isName] at named
      cases named
    next => exact named

lemma ComparisonClause.not_existence (sides : ComparisonClause)
    (inside : ∀ c ∈ sides.relOperator, c ∈ t) : matchesPropertyExistence t = false := by
  have signs : ∀ relOperator ∈ relationSigns,
      (relOperator.any fun c => c != '!' && !isPropertyCharacter c) = true := by
    decide
  rcases any_eq_true.mp (signs _ sides.relational) with ⟨c, member, both⟩
  rw [Bool.and_eq_true_iff, bne_iff_ne, Bool.not_eq_true'] at both
  rcases both with ⟨notMark, notProperty⟩
  apply Bool.eq_false_iff.mpr
  intro matched
  rcases mem_matchesPropertyExistence matched c (inside c member) with isMark | isProperty
  · exact notMark isMark
  · rw [notProperty] at isProperty
    cases isProperty

lemma ComparisonClause.match_between (sides : ComparisonClause) (before after : Text)
    (left : ∀ c ∈ before, isLeftCharacter c = true) :
    matchRelationalExpression (before ++ ((Clause.comparison sides).text ++ after)) =
      if after.all fun c => !isRelationSign c then
        some ⟨before ++ sides.lhs, sides.relOperator, sides.rhs ++ after, []⟩
      else none := by
  rcases relationSign_of_mem sides.relational with ⟨present, signs⟩
  have allLeft : ∀ c ∈ before ++ sides.lhs, isLeftCharacter c = true := by
    intro c member
    rcases mem_append.mp member with early | late
    · exact left c early
    · exact sides.left c late
  have apart : ∀ c rest, sides.rhs ++ after = c :: rest -> isRelationSign c = false := by
    intro c rest split
    rcases exists_cons_of_ne_nil sides.present.2 with ⟨first, others, isRight⟩
    rw [isRight] at split
    rw [<- (cons.inj split).1]
    exact sides.right first (isRight ▸ mem_cons_self)
  have regrouped : before ++ ((Clause.comparison sides).text ++ after) =
      (before ++ sides.lhs) ++ (sides.relOperator ++ (sides.rhs ++ after)) := by
    simp [Clause.text]
  have leftPresent : (before ++ sides.lhs).isEmpty = false := by
    simp [sides.present.1]
  have rightPresent : (sides.rhs ++ after).isEmpty = false := by
    simp [sides.present.2]
  have isOperator : relationSigns.contains sides.relOperator = true :=
    contains_iff_mem.mpr sides.relational
  have rightPlain : (sides.rhs.all fun c => !isRelationSign c) = true := by
    apply all_eq_true.mpr
    intro c member
    rw [sides.right c member]
    rfl
  rw [regrouped, matchRelationalExpression_append allLeft signs present apart, leftPresent,
    rightPresent, isOperator, all_append, rightPlain]
  rfl

namespace Clause

variable (clause : Clause)

lemma encode : encodeRelationalExpression clause.text = .ok clause.expression := by
  unfold encodeRelationalExpression
  cases clause with
  | comparison sides =>
    have found := sides.match_between [] [] (forall_mem_nil _)
    rw [nil_append, append_nil, append_nil] at found
    have notExistence : matchesPropertyExistence (Clause.comparison sides).text = false := by
      apply sides.not_existence
      intro c member
      exact mem_append_left _ (mem_append_right _ member)
    simp only [notExistence, found]
    rfl
  | existence check =>
    rw [if_pos check.matches]
    rfl

lemma isRelational : isRelationalExpression clause.text = true := by
  unfold isRelationalExpression
  cases clause with
  | comparison sides =>
    have found := sides.match_between [] [] (forall_mem_nil _)
    rw [nil_append, append_nil] at found
    rw [found]
    rfl
  | existence check => rw [check.matches, Bool.or_true]

end Clause

/-! ## How the parts of a predicate are found -/

/-- A blank, or the end of the text. -/
def Stops (later : Text) : Prop :=
  later = [] ∨ ∃ rest, later = ' ' :: rest

lemma childRelationalExpressionAt_append {later : Text} (stops : Stops later) :
    ∀ escaped, hasEscapedBlanks escaped t = true ->
      childRelationalExpressionAt escaped (t ++ later) = t := by
  induction t with
  | nil =>
    intro escaped whole
    cases escaped with
    | true => cases whole
    | false =>
      rcases stops with empty | ⟨rest, isBlank⟩
      · rw [empty]
        rfl
      · rw [isBlank]
        rfl
  | cons c rest ih =>
    intro escaped whole
    cases escaped with
    | true =>
      rw [cons_append, childRelationalExpressionAt, ih false whole]
    | false =>
      rw [cons_append, childRelationalExpressionAt]
      rw [hasEscapedBlanks] at whole
      split at whole
      next backslash => rw [if_pos backslash, ih true whole]
      next backslash =>
        rcases Bool.and_eq_true_iff.mp whole with ⟨notBlank, later⟩
        rw [if_neg backslash, if_neg (by simpa using notBlank), ih false later]

lemma childPredicateAt_append (plain : ∀ c ∈ t, isParenthesis c = false)
    (depth : Nat) (later : Text) :
    childPredicateAt depth (t ++ later) = (childPredicateAt depth later).map (t ++ ·) := by
  induction t with
  | nil => simp
  | cons c rest ih =>
    have notHere := plain c mem_cons_self
    rw [isParenthesis, Bool.or_eq_false_iff, beq_eq_false_iff_ne, beq_eq_false_iff_ne] at notHere
    rw [cons_append, childPredicateAt, if_neg notHere.2, if_neg notHere.1,
      ih fun other member => plain other (mem_cons_of_mem c member), Option.map_map]
    rfl

lemma connectiveText_unparenthesized (op : Connective) :
    ∀ c ∈ connectiveText op, isParenthesis c = false := by
  cases op with
  | and => exact forall_of_none rfl
  | or => exact forall_of_none rfl

mutual

theorem ClauseOperand.childPredicateAt (operand : ClauseOperand) (depth : Nat) (later : Text) :
    Predicates.childPredicateAt (depth + 1) (operand.text ++ later) =
      (Predicates.childPredicateAt (depth + 1) later).map (operand.text ++ ·) := by
  cases operand with
  | clause clause => exact childPredicateAt_append clause.unparenthesized _ later
  | group body =>
    have inside := ClauseSequence.childPredicateAt body (depth + 1) (')' :: later)
    rw [ClauseOperand.text, cons_append, append_assoc, singleton_append,
      Predicates.childPredicateAt, if_neg (by decide), if_pos rfl, inside,
      Predicates.childPredicateAt, if_pos rfl, if_neg (Nat.succ_ne_succ_iff.mpr
        (Nat.succ_ne_zero depth)), Option.map_map, Option.map_map]
    congr 1
    funext found
    simp

/-- Inside a group the parenthesis that closes it is not found before the end. -/
theorem ClauseSequence.childPredicateAt (sequence : ClauseSequence) (depth : Nat) (later : Text) :
    Predicates.childPredicateAt (depth + 1) (sequence.text ++ later) =
      (Predicates.childPredicateAt (depth + 1) later).map (sequence.text ++ ·) := by
  cases sequence with
  | single operand => exact ClauseOperand.childPredicateAt operand depth later
  | join first op rest =>
    rw [ClauseSequence.text, append_assoc, append_assoc,
      ClauseOperand.childPredicateAt first depth,
      childPredicateAt_append (connectiveText_unparenthesized op),
      ClauseSequence.childPredicateAt rest depth, Option.map_map, Option.map_map]
    congr 1
    funext found
    simp

end

lemma getChildPredicate_group (body : ClauseSequence) (later : Text) :
    getChildPredicate (body.text ++ ')' :: later) = body.text := by
  unfold getChildPredicate
  rw [body.childPredicateAt 0, childPredicateAt, if_pos rfl, if_pos rfl, Option.map_some,
    Option.getD_some, append_nil]

/-! ## The front of a combination -/

/-- The first clause of a text with the parentheses before it and everything behind it. -/
structure Front (written : Text) (clauses : List Clause) (depth : Nat) (first : Clause)
    (others : List Clause) (behind : Text) : Prop where
  split : written = List.replicate depth '(' ++ (first.text ++ behind)
  clauses : clauses = first :: others
  plain : (∀ c ∈ behind, isRelationSign c = false) ↔ ∀ clause ∈ others, clause.isPlain = true
  closes : ∃ closed later, behind = List.replicate closed ')' ++ later ∧ Stops later

lemma connectiveText_plain (op : Connective) :
    ∀ c ∈ connectiveText op, isRelationSign c = false := by
  cases op with
  | and => exact forall_of_none rfl
  | or => exact forall_of_none rfl

mutual

theorem ClauseOperand.plain_iff (operand : ClauseOperand) :
    (∀ c ∈ operand.text, isRelationSign c = false) ↔
      ∀ clause ∈ operand.clauses, clause.isPlain = true := by
  cases operand with
  | clause clause =>
    rw [ClauseOperand.text, ClauseOperand.clauses, clause.isPlain_iff]
    simp only [mem_singleton, forall_eq]
  | group body =>
    rw [ClauseOperand.text, ClauseOperand.clauses, <- ClauseSequence.plain_iff body]
    have parentheses : isRelationSign '(' = false ∧ isRelationSign ')' = false := by decide
    simp only [mem_cons, mem_append, not_mem_nil, or_false, or_imp, forall_and,
      forall_eq, parentheses, true_and, and_true]

theorem ClauseSequence.plain_iff (sequence : ClauseSequence) :
    (∀ c ∈ sequence.text, isRelationSign c = false) ↔
      ∀ clause ∈ sequence.clauses, clause.isPlain = true := by
  cases sequence with
  | single operand => exact ClauseOperand.plain_iff operand
  | join first op rest =>
    rw [ClauseSequence.text, ClauseSequence.clauses]
    simp only [mem_append, or_imp, forall_and, ClauseOperand.plain_iff first,
      ClauseSequence.plain_iff rest]
    exact and_congr_right fun _ => and_iff_right (connectiveText_plain op)

end

mutual

theorem ClauseOperand.front (operand : ClauseOperand) :
    ∃ depth first others behind, Front operand.text operand.clauses depth first others behind := by
  cases operand with
  | clause clause =>
    refine ⟨0, clause, [], [], ?_, rfl, ?_, 0, [], rfl, .inl rfl⟩
    · rw [append_nil]
      rfl
    · exact iff_of_true (forall_mem_nil _) (forall_mem_nil _)
  | group body =>
    rcases ClauseSequence.front body with ⟨depth, first, others, behind, front⟩
    refine ⟨depth + 1, first, others, behind ++ [')'], ?_, front.clauses, ?_, ?_⟩
    · rw [ClauseOperand.text, front.split, replicate_succ]
      simp
    · rw [<- front.plain]
      have parenthesis : isRelationSign ')' = false := by decide
      simp only [mem_append, mem_singleton, or_imp, forall_and, forall_eq, parenthesis, and_true]
    · rcases front.closes with ⟨closed, later, split, stops⟩
      rcases stops with empty | ⟨rest, isBlank⟩
      · refine ⟨closed + 1, [], ?_, .inl rfl⟩
        rw [split, empty, append_nil, append_nil, replicate_succ']
      · refine ⟨closed, ' ' :: (rest ++ [')']), ?_, .inr ⟨_, rfl⟩⟩
        rw [split, isBlank]
        simp

theorem ClauseSequence.front (sequence : ClauseSequence) :
    ∃ depth first others behind,
      Front sequence.text sequence.clauses depth first others behind := by
  cases sequence with
  | single operand => exact ClauseOperand.front operand
  | join operand op rest =>
    rcases ClauseOperand.front operand with ⟨depth, first, others, behind, front⟩
    have blank : ∃ word, connectiveText op = ' ' :: word := by
      cases op with
      | and => exact ⟨_, rfl⟩
      | or => exact ⟨_, rfl⟩
    refine ⟨depth, first, others ++ rest.clauses, behind ++ (connectiveText op ++ rest.text),
      ?_, ?_, ?_, ?_⟩
    · rw [ClauseSequence.text, front.split]
      simp
    · rw [ClauseSequence.clauses, front.clauses, cons_append]
    · simp only [mem_append, or_imp, forall_and, <- front.plain,
        <- ClauseSequence.plain_iff rest]
      exact and_congr_right fun _ => and_iff_right (connectiveText_plain op)
    · rcases front.closes with ⟨closed, later, split, stops⟩
      rcases blank with ⟨word, isBlank⟩
      refine ⟨closed, later ++ (connectiveText op ++ rest.text), ?_, ?_⟩
      · rw [split, append_assoc]
      · rcases stops with empty | ⟨more, isMore⟩
        · rw [empty, isBlank]
          exact .inr ⟨_, rfl⟩
        · rw [isMore]
          exact .inr ⟨_, rfl⟩

end

lemma replicate_leftCharacter {d : Char} (isLeft : isLeftCharacter c = true) {count : Nat}
    (member : d ∈ replicate count c) : isLeftCharacter d = true := by
  rw [eq_of_mem_replicate member]
  exact isLeft

namespace Front

variable {written : Text} {clauses : List Clause} {depth : Nat} {first : Clause}
  {others : List Clause} {behind : Text}
  (front : Front written clauses depth first others behind)

include front

lemma match_comparison {sides : ComparisonClause} (isFirst : first = .comparison sides)
    (alone : ∀ clause ∈ others, clause.isPlain = true) :
    matchRelationalExpression written =
      some ⟨replicate depth '(' ++ sides.lhs, sides.relOperator, sides.rhs ++ behind, []⟩ := by
  have plain : (behind.all fun c => !isRelationSign c) = true := by
    apply all_eq_true.mpr
    intro c member
    rw [front.plain.mpr alone c member]
    rfl
  rw [front.split, isFirst, sides.match_between _ _
    fun c member => replicate_leftCharacter rfl member, if_pos plain]

lemma match_none (several : ¬ OneComparison clauses) :
    matchRelationalExpression written = none := by
  cases isFirst : first with
  | comparison sides =>
    have notPlain : ¬ (behind.all fun c => !isRelationSign c) = true := by
      intro plain
      apply several
      rw [front.clauses, isFirst]
      apply front.plain.mp
      intro c member
      simpa using all_eq_true.mp plain c member
    rw [front.split, isFirst, sides.match_between _ _
      fun c member => replicate_leftCharacter rfl member, if_neg notPlain]
  | existence check =>
    rcases mem_matchesPropertyName check.named with ⟨present, names⟩
    rcases front.closes with ⟨closed, later, split, stops⟩
    cases negated : check.negated with
    | false =>
      have regrouped : written =
          (replicate depth '(' ++ check.name ++ replicate closed ')') ++ later := by
        rw [front.split, isFirst, split]
        simp [Clause.text, negated]
      rw [regrouped]
      apply matchRelationalExpression_none
      · intro c member
        simp only [mem_append] at member
        rcases member with (opening | isName) | closing
        · exact replicate_leftCharacter rfl opening
        · exact (propertyCharacter_plain (names c isName)).2.2.1
        · exact replicate_leftCharacter rfl closing
      · intro c rest isLater
        rcases stops with empty | ⟨more, isBlank⟩
        · rw [empty] at isLater
          cases isLater
        · rw [isBlank] at isLater
          rw [<- (cons.inj isLater).1]
          decide
    | true =>
      have regrouped : written = replicate depth '(' ++ (text "!" ++ (check.name ++ behind)) := by
        rw [front.split, isFirst]
        have mark : text "!" = ['!'] := rfl
        simp [Clause.text, negated, mark]
      rw [regrouped, matchRelationalExpression_append
        (fun c member => replicate_leftCharacter rfl member) (all_eq_true.mp rfl)
        (by decide)]
      · have noOperator : relationSigns.contains (text "!") = false := by decide
        rw [noOperator]
        simp
      · intro c rest isLater
        rcases exists_cons_of_ne_nil present with ⟨head, more, isName⟩
        rw [isName] at isLater
        rw [<- (cons.inj isLater).1]
        exact (propertyCharacter_plain (names head (isName ▸ mem_cons_self))).1

end Front

/-! ## What is parsed -/

/-- What a text is parsed as: what is written if the clauses are kept apart, else with a clause that
is no leaf. -/
structure Reads {Result : Type} (leaves : Result -> List RelationalExpression)
    (result written : Result) (clauses : List Clause) (separate : Prop) : Prop where
  faithful : separate -> result = written
  few : (leaves result).length <= clauses.length
  exactly : leaves result = clauses.map Clause.expression -> separate

lemma leaves_group {children : List PredicateObject} (present : children ≠ [])
    (operators : List Text) :
    (PredicateObject.group operators children).leaves = leavesOfChildren children := by
  cases children with
  | nil => exact absurd rfl present
  | cons first rest => rfl

lemma reads_leaf (clause : Clause) :
    Reads PredicateObject.leaves (.leaf clause.expression) (.leaf clause.expression) [clause]
      True :=
  ⟨fun _ => rfl, le_refl _, fun _ => trivial⟩

lemma Reads.child {object written : PredicateObject} {clauses : List Clause} {separate : Prop}
    (reads : Reads PredicateObject.leaves object written clauses separate) :
    Reads leavesOfChildren [object] [written] clauses separate where
  faithful holds := by rw [reads.faithful holds]
  few := by
    rw [leavesOfChildren, leavesOfChildren, append_nil]
    exact reads.few
  exactly same := by
    rw [leavesOfChildren, leavesOfChildren, append_nil] at same
    exact reads.exactly same

lemma Reads.children {object written : PredicateObject} {objects others : List PredicateObject}
    {clauses later : List Clause} {separate separateLater : Prop}
    (first : Reads PredicateObject.leaves object written clauses separate)
    (rest : Reads leavesOfChildren objects others later separateLater) :
    Reads leavesOfChildren (object :: objects) (written :: others) (clauses ++ later)
      (separate ∧ separateLater) where
  faithful holds := by rw [first.faithful holds.1, rest.faithful holds.2]
  few := by
    rw [leavesOfChildren, length_append, length_append]
    exact Nat.add_le_add first.few rest.few
  exactly same := by
    rw [leavesOfChildren, map_append] at same
    have lengths := congrArg List.length same
    have few := first.few
    have fewLater := rest.few
    simp only [length_append, length_map] at lengths
    have sameLength : object.leaves.length = (clauses.map Clause.expression).length := by
      rw [length_map]
      omega
    rcases append_inj same sameLength with ⟨here, there⟩
    exact ⟨first.exactly here, rest.exactly there⟩

/-- A combination has a blank or a parenthesis in it. -/
lemma not_existence_of_mem {written : Text} (member : c ∈ written)
    (separator : c = ' ' ∨ c = '(') : matchesPropertyExistence written = false := by
  apply Bool.eq_false_iff.mpr
  intro matched
  have known := mem_matchesPropertyExistence matched c member
  rcases separator with isBlank | isOpening
  · subst isBlank
    revert known
    decide
  · subst isOpening
    revert known
    decide

lemma blank_mem_connectiveText (op : Connective) : ' ' ∈ connectiveText op := by
  cases op with
  | and => decide
  | or => decide

/-- The operands of a combination are parsed, and it is put together or taken for one comparison. -/
lemma reads_combination {sequence : ClauseSequence} {fuel : Nat} {children : List PredicateObject}
    (combined : ∀ clause, sequence ≠ .single (.clause clause))
    (ran : createChildrenWithin fuel sequence.text = .ok (children, sequence.operators))
    (present : children ≠ [])
    (inside : Reads leavesOfChildren children sequence.objects sequence.clauses
      sequence.SeparateInside) :
    ∃ object, createPredicateObjectWithin (fuel + 1) sequence.text = .ok object ∧
      Reads PredicateObject.leaves object sequence.object sequence.clauses sequence.Separate := by
  have isGroup : sequence.object = .group sequence.operators sequence.objects := by
    cases sequence with
    | single operand =>
      cases operand with
      | clause clause => exact absurd rfl (combined clause)
      | group body => rfl
    | join first op rest => rfl
  have swallows : sequence.Swallows ↔ OneComparison sequence.clauses := by
    cases sequence with
    | single operand =>
      cases operand with
      | clause clause => exact absurd rfl (combined clause)
      | group body => rfl
    | join first op rest => rfl
  have separate : sequence.Separate ↔ ¬ sequence.Swallows ∧ sequence.SeparateInside := by
    cases sequence with
    | single operand => rfl
    | join first op rest => rfl
  have separator : ∃ c ∈ sequence.text, (c = ' ' ∨ c = '(') := by
    cases sequence with
    | single operand =>
      cases operand with
      | clause clause => exact absurd rfl (combined clause)
      | group body => exact ⟨'(', mem_cons_self, .inr rfl⟩
    | join first op rest =>
      refine ⟨' ', ?_, .inl rfl⟩
      exact mem_append_right _ (mem_append_left _ (blank_mem_connectiveText op))
  rcases separator with ⟨c, member, isSeparator⟩
  have notExistence := not_existence_of_mem member isSeparator
  rcases sequence.front with ⟨depth, first, others, behind, front⟩
  rw [createPredicateObjectWithin, isRelationalExpression, notExistence]
  by_cases one : OneComparison sequence.clauses
  · cases isFirst : first with
    | existence check =>
      rw [front.clauses, isFirst] at one
      exact one.elim
    | comparison sides =>
      have alone : ∀ clause ∈ others, clause.isPlain = true := by
        rw [front.clauses, isFirst] at one
        exact one
      have matched := front.match_comparison isFirst alone
      rw [encodeRelationalExpression, notExistence, matched]
      refine ⟨_, rfl, fun holds => absurd (swallows.mpr one) (separate.mp holds).1, ?_, ?_⟩
      · rw [front.clauses]
        exact Nat.succ_le_succ (Nat.zero_le _)
      · -- The comparison has more in it than the clause, unless it is the clause itself.
        intro same
        exfalso
        rw [front.clauses, isFirst] at same
        injection same with sameFirst sameOthers
        injection sameFirst with sameLeft _ sameRight
        have noDepth : replicate depth '(' = [] := append_left_eq_self.mp sameLeft
        have nothing : behind = [] := append_right_eq_self.mp sameRight
        have isClause : sequence.text = first.text := by
          rw [front.split, noDepth, nothing, nil_append, append_nil]
        cases sequence with
        | single operand =>
          cases operand with
          | clause clause => exact combined clause rfl
          | group body =>
            have plain := first.unparenthesized '(' (isClause ▸ mem_cons_self)
            cases plain
        | join operand op rest =>
          rcases rest.front with ⟨_, second, _, _, frontRest⟩
          rcases operand.front with ⟨_, head, _, _, frontOperand⟩
          have clauses := front.clauses
          rw [ClauseSequence.clauses, frontOperand.clauses, frontRest.clauses,
            map_eq_nil_iff.mp sameOthers.symm] at clauses
          have lengths := congrArg List.length clauses
          simp at lengths
  · rw [front.match_none one, ran]
    refine ⟨.group sequence.operators children, rfl, ?_, ?_, ?_⟩
    · intro holds
      rw [isGroup, inside.faithful (separate.mp holds).2]
    · rw [leaves_group present]
      exact inside.few
    · intro same
      rw [leaves_group present] at same
      exact separate.mpr ⟨fun swallowed => one (swallows.mp swallowed), inside.exactly same⟩

/-- What the loop does after a child. -/
def continueChildren (fuel : Nat) (child : PredicateObject) (later : Text) :
    StatusOr (List PredicateObject × List Text) :=
  if later.isEmpty then .ok ([child], [])
  else do
    let logop <- getLogicalOperator later
    let (children, operators) <- createChildrenWithin fuel (later.drop logop.length)
    return (child :: children, logop :: operators)

lemma createChildrenWithin_clause (fuel : Nat) (clause : Clause) {later : Text}
    (stops : Stops later) :
    createChildrenWithin (fuel + 1) (clause.text ++ later) =
      continueChildren fuel (.leaf clause.expression) later := by
  rcases exists_cons_of_ne_nil clause.text_ne_nil with ⟨c, rest, isText⟩
  have notOpening : c ≠ '(' := by
    intro same
    have plain := clause.unparenthesized c (isText ▸ mem_cons_self)
    rw [same] at plain
    cases plain
  have found : getChildRelationalExpression (c :: (rest ++ later)) = clause.text := by
    rw [<- cons_append, <- isText]
    exact childRelationalExpressionAt_append stops false clause.whole
  have dropped : (c :: (rest ++ later)).drop clause.text.length = later := by
    rw [<- cons_append, <- isText, drop_left]
  conv_lhs => rw [isText, cons_append, createChildrenWithin]
  simp only [if_neg notOpening, found, clause.encode, dropped]
  rfl

lemma createChildrenWithin_group (fuel : Nat) (body : ClauseSequence) {object : PredicateObject}
    (ran : createPredicateObjectWithin fuel body.text = .ok object) (later : Text) :
    createChildrenWithin (fuel + 1) ((ClauseOperand.group body).text ++ later) =
      continueChildren fuel object later := by
  have regrouped : (ClauseOperand.group body).text ++ later =
      '(' :: (body.text ++ ')' :: later) := by
    simp [ClauseOperand.text]
  have dropped : (body.text ++ ')' :: later).drop (body.text.length + 1) = later := by
    rw [<- drop_drop, drop_left]
    rfl
  rw [regrouped, createChildrenWithin]
  simp only [getChildPredicate_group, ran, dropped]
  rfl

lemma continueChildren_connective (fuel : Nat) (child : PredicateObject) (op : Connective)
    (rest : Text) :
    continueChildren fuel child (connectiveText op ++ rest) = do
      let (children, operators) <- createChildrenWithin fuel rest
      return (child :: children, connectiveText op :: operators) := by
  have found : getLogicalOperator (connectiveText op ++ rest) = .ok (connectiveText op) := by
    cases op with
    | and => rfl
    | or => rfl
  have present : (connectiveText op ++ rest).isEmpty = false := by
    cases op with
    | and => rfl
    | or => rfl
  unfold continueChildren
  rw [present, found]
  change (do
    let (children, operators) <- createChildrenWithin fuel
      ((connectiveText op ++ rest).drop (connectiveText op).length)
    return (child :: children, connectiveText op :: operators)) = _
  rw [drop_left]

mutual

theorem ClauseOperand.parses (operand : ClauseOperand) (fuel : Nat)
    (enough : 2 * operand.text.length <= fuel) {later : Text} (stops : Stops later) :
    ∃ object, createChildrenWithin (fuel + 1) (operand.text ++ later) =
        continueChildren fuel object later ∧
      Reads PredicateObject.leaves object operand.object operand.clauses operand.Separate := by
  cases operand with
  | clause clause =>
    exact ⟨_, createChildrenWithin_clause fuel clause stops, reads_leaf clause⟩
  | group body =>
    have length : (ClauseOperand.group body).text.length = body.text.length + 2 := by
      simp [ClauseOperand.text]
    rcases fuel with _ | fuel
    · omega
    · rcases ClauseSequence.parses body fuel (by omega) with ⟨object, ran, reads⟩
      exact ⟨object, createChildrenWithin_group (fuel + 1) body ran later, reads⟩
termination_by (sizeOf operand, 0)

theorem ClauseSequence.parses (sequence : ClauseSequence) (fuel : Nat)
    (enough : 2 * sequence.text.length + 1 <= fuel) :
    ∃ object, createPredicateObjectWithin (fuel + 1) sequence.text = .ok object ∧
      Reads PredicateObject.leaves object sequence.object sequence.clauses sequence.Separate := by
  rcases ClauseSequence.parsesInside sequence fuel enough with ⟨children, ran, present, reads⟩
  by_cases alone : ∃ clause, sequence = .single (.clause clause)
  · rcases alone with ⟨clause, isClause⟩
    subst isClause
    refine ⟨.leaf clause.expression, ?_, ?_⟩
    · rw [createPredicateObjectWithin, ClauseSequence.text, ClauseOperand.text,
        if_pos clause.isRelational, clause.encode]
      rfl
    · exact ⟨fun _ => rfl, le_refl _, fun _ => ⟨fun swallowed => swallowed, trivial⟩⟩
  · exact reads_combination (fun clause isClause => alone ⟨clause, isClause⟩) ran present reads
termination_by (sizeOf sequence, 1)

/-- A text that is written as a combination, in the loop. -/
theorem ClauseSequence.parsesInside (sequence : ClauseSequence) (fuel : Nat)
    (enough : 2 * sequence.text.length + 1 <= fuel) :
    ∃ children, createChildrenWithin fuel sequence.text =
        .ok (children, sequence.operators) ∧ children ≠ [] ∧
      Reads leavesOfChildren children sequence.objects sequence.clauses
        sequence.SeparateInside := by
  cases sequence with
  | single operand =>
    rcases fuel with _ | fuel
    · omega
    · rcases ClauseOperand.parses operand fuel
        (by simp only [ClauseSequence.text] at enough; omega) (.inl rfl) with
        ⟨object, ran, reads⟩
      rw [append_nil] at ran
      exact ⟨[object], ran, cons_ne_nil object [], reads.child⟩
  | join first op rest =>
    have length : (ClauseSequence.join first op rest).text.length =
        first.text.length + (connectiveText op).length + rest.text.length := by
      simp [ClauseSequence.text, Nat.add_assoc]
    have wide : 0 < (connectiveText op).length := by
      cases op with
      | and => decide
      | or => decide
    have stops : Stops (connectiveText op ++ rest.text) := by
      cases op with
      | and => exact .inr ⟨_, rfl⟩
      | or => exact .inr ⟨_, rfl⟩
    rcases fuel with _ | fuel
    · omega
    · rcases ClauseOperand.parses first fuel (by omega) stops with ⟨object, ran, reads⟩
      rcases ClauseSequence.parsesInside rest fuel (by omega) with ⟨children, ranRest, _, readsRest⟩
      refine ⟨object :: children, ?_, cons_ne_nil object children, reads.children readsRest⟩
      rw [ClauseSequence.text, ran, continueChildren_connective, ranRest]
      rfl
termination_by (sizeOf sequence, 0)

end

mutual

theorem ClauseOperand.leaves_object (operand : ClauseOperand) :
    operand.object.leaves = operand.clauses.map Clause.expression := by
  cases operand with
  | clause clause => rfl
  | group body => exact ClauseSequence.leaves_object body

theorem ClauseSequence.leaves_object (sequence : ClauseSequence) :
    sequence.object.leaves = sequence.clauses.map Clause.expression := by
  cases sequence with
  | single operand =>
    cases operand with
    | clause clause => rfl
    | group body =>
      have inside := ClauseSequence.leaves_object body
      change body.object.leaves ++ [] = _
      rw [append_nil]
      exact inside
  | join first op rest =>
    change first.object.leaves ++ leavesOfChildren rest.objects = _
    rw [ClauseOperand.leaves_object first, ClauseSequence.leaves_objects rest,
      ClauseSequence.clauses, map_append]

theorem ClauseSequence.leaves_objects (sequence : ClauseSequence) :
    leavesOfChildren sequence.objects = sequence.clauses.map Clause.expression := by
  cases sequence with
  | single operand =>
    change operand.object.leaves ++ [] = _
    rw [append_nil]
    exact ClauseOperand.leaves_object operand
  | join first op rest =>
    change first.object.leaves ++ leavesOfChildren rest.objects = _
    rw [ClauseOperand.leaves_object first, ClauseSequence.leaves_objects rest,
      ClauseSequence.clauses, map_append]

end

/-- A predicate is parsed as it is written exactly if neither it nor a group in it reads like one
comparison. -/
theorem parses_clauses_iff : ∀ sequence : ClauseSequence,
    ((∃ object, createPredicateObject sequence.text = .ok object ∧
        object.leaves = sequence.clauses.map Clause.expression) ↔ sequence.Separate) ∧
      (createPredicateObject sequence.text = .ok sequence.object ↔ sequence.Separate) := by
  intro sequence
  rcases sequence.parses (2 * sequence.text.length + 1) (le_refl _) with ⟨object, ran, reads⟩
  have created : createPredicateObject sequence.text = .ok object := ran
  rw [created]
  constructor
  · constructor
    · rintro ⟨other, same, leaves⟩
      cases same
      exact reads.exactly leaves
    · intro separate
      refine ⟨object, rfl, ?_⟩
      rw [reads.faithful separate]
      exact sequence.leaves_object
  · constructor
    · intro same
      apply reads.exactly
      rw [Except.ok.inj same]
      exact sequence.leaves_object
    · intro separate
      rw [reads.faithful separate]

/-- `Prop1>42` -/
def aboveLimit : Clause :=
  .comparison {
    lhs := text "Prop1"
    relOperator := text ">"
    rhs := text "42"
    present := by decide
    left := List.all_eq_true.mp rfl
    relational := by decide
    right := forall_of_none rfl
    unparenthesized := forall_of_none rfl
    whole := by decide }

/-- `Prop2` -/
def isPresent : Clause :=
  .existence ⟨false, text "Prop2", by decide⟩

/-- An existence check behind a comparison, and a comparison in parentheses. -/
theorem swallows_clauses :
    [ClauseSequence.join (.clause aboveLimit) .and (.single (.clause isPresent)),
      .single (.group (.single (.clause aboveLimit)))].Forall fun sequence =>
      sequence.text ∈ [text "Prop1>42 and Prop2", text "(Prop1>42)"] ∧
        (∃ relexp, createPredicateObject sequence.text = .ok (.leaf relexp) ∧
          relexp.rhs ∈ [text "42 and Prop2", text "42)"]) ∧
        ¬ ∃ object, createPredicateObject sequence.text = .ok object ∧
          object.leaves = sequence.clauses.map Clause.expression := by
  rw [List.forall_iff_forall_mem]
  intro sequence member
  simp only [List.mem_cons, List.not_mem_nil, or_false] at member
  rcases member with isJoin | isGroup
  · subst isJoin
    refine ⟨by decide, ⟨_, rfl, by decide⟩, ?_⟩
    rintro ⟨object, created, leaves⟩
    cases created
    cases leaves
  · subst isGroup
    refine ⟨by decide, ⟨_, rfl, by decide⟩, ?_⟩
    rintro ⟨object, created, leaves⟩
    cases created
    cases leaves

end Ecclesia.Predicates
