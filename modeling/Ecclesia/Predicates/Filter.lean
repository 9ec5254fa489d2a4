import Ecclesia.Library.Precedence
import Ecclesia.Absl.Strings

namespace Ecclesia.Predicates

open Absl List Option

/-!
# Filters

A predicate on the members of a collection can be sent to the service as a `$filter`
parameter, so that only members that may be wanted are returned.  The service reads
the parameter with precedence, while the predicates of a RedPath are read from left
to right.  The definitions follow `filter.cc` and `predicate_object.h`; whether a text
is a floating point number is a parameter.
-/

structure RelationalExpression where
  lhs : Text
  relOperator : Text
  rhs : Text
  /-- set only for the existence check of a property -/
  propertyName : Text
deriving DecidableEq

inductive PredicateObject where
  | mk (relationalExpression : RelationalExpression) (logicalOperators : List Text)
      (childPredicates : List PredicateObject)

namespace PredicateObject

def relationalExpression : PredicateObject -> RelationalExpression
  | .mk relationalExpression _ _ => relationalExpression

def childPredicates : PredicateObject -> List PredicateObject
  | .mk _ _ childPredicates => childPredicates

end PredicateObject

def relationalExpressionToString (relexp : RelationalExpression) : StatusOr Text :=
  if relexp.propertyName.isEmpty then .ok (relexp.lhs ++ relexp.relOperator ++ relexp.rhs)
  else .error (.invalidArgument (text "Property existence is not supported by $filter"))

/-- The characters that `EncodeSpecialCharacters` replaces. -/
def specialCharacterEncodings : List (Char × Text) :=
  [('+', text "%2B"), (' ', text "%20"), (':', text "%3A"), ('/', text "%2F"),
    ('?', text "%3F"), ('#', text "%25"), ('[', text "%5B"), (']', text "%5D"),
    ('@', text "%40"), ('!', text "%21"), ('$', text "%24"), ('&', text "%26"),
    ('\'', text "%27"), ('(', text "%28"), (')', text "%29"), ('*', text "%2A"),
    (',', text "%2C"), (';', text "%3B"), ('=', text "%3D"), ('\\', [])]

def encodeSpecialCharacters (filterString : Text) : Text :=
  strReplaceAll filterString (specialCharacterEncodings.map fun entry => ([entry.1], entry.2))

def relationalOperators : List (Text × Text) :=
  [(text "<", text " lt "), (text ">", text " gt "), (text "<=", text " le "),
    (text ">=", text " ge "), (text "=", text " eq "), (text "!=", text " ne "),
    (text "<~", text " lt "), (text "<~=", text " le "), (text "~>", text " gt "),
    (text "~>=", text " ge ")]

section

variable (simpleAtof : Text -> Bool)

def applyTransformsToExpression (redpathExpression : RelationalExpression) :
    RelationalExpression where
  lhs := strReplaceAll redpathExpression.lhs [(text ".", text "/")]
  relOperator := strReplaceAll redpathExpression.relOperator relationalOperators
  rhs :=
    let rhs := redpathExpression.rhs
    if (simpleAtoi32 rhs).isNone && !simpleAtof rhs && rhs ≠ text "true" && rhs ≠ text "false" &&
        rhs.take 1 ≠ text "'" then text "'" ++ rhs ++ text "'"
    else rhs
  propertyName := redpathExpression.propertyName

mutual

def generateFilterString : PredicateObject -> StatusOr Text
  | .mk relationalExpression _ [] => do
      let filterString <-
        relationalExpressionToString (applyTransformsToExpression simpleAtof relationalExpression)
      return encodeSpecialCharacters filterString
  | .mk _ logicalOperators (first :: rest) => do
      let filterString <- filterChildren (first :: rest) logicalOperators
      return encodeSpecialCharacters filterString

/-- The loop over the children. Only one with children of its own is put in parentheses. -/
def filterChildren : List PredicateObject -> List Text -> StatusOr Text
  | [], _ => .ok []
  | child :: rest, logicalOperators => do
      let childFilterString <-
        (if child.childPredicates.isEmpty then
          relationalExpressionToString
            (applyTransformsToExpression simpleAtof child.relationalExpression)
        else
          (generateFilterString child).map fun filterString => text "(" ++ filterString ++ text ")")
      let later <- filterChildren rest logicalOperators.tail
      return childFilterString ++ logicalOperators.headD [] ++ later

end

/-- The end of `BuildFilterFromRedpathPredicateList`: the filters of some predicate
objects are joined by `or`. -/
def buildFilterFromPredicateObjects (predicates : List PredicateObject) : StatusOr Text := do
  let filterStrings <- predicates.mapM (generateFilterString simpleAtof)
  return strJoin filterStrings (text "%20or%20")

end

example : (generateFilterString (fun _ => false) (.mk ⟨[], [], [], []⟩ [text " and "]
    [.mk ⟨text "Reading.Value", text "<=", text "42", []⟩ [] [],
      .mk ⟨[], [], [], []⟩ [] [.mk ⟨text "Name", text "=", text "fan", []⟩ [] []]])) =
    .ok (text "Reading%2FValue%20le%2042%20and%20%28Name%20eq%20%27fan%27%29") := by
  decide

def connective? (logicalOperator : Text) : Option Connective :=
  if logicalOperator = text " and " then some .and
  else if logicalOperator = text " or " then some .or
  else none

mutual

/-- A predicate object as an operand, with logical operators between any two neighbours. -/
def operandOf : PredicateObject -> Option (Operand RelationalExpression)
  | .mk relationalExpression _ [] =>
    if relationalExpression.propertyName.isEmpty then some (.atom relationalExpression) else none
  | .mk _ logicalOperators (first :: rest) => do
      let operand <- operandOf first
      let body <- joinChildren (.single operand) logicalOperators rest
      return .group 0 body 0

def joinChildren (before : Expression RelationalExpression) :
    List Text -> List PredicateObject -> Option (Expression RelationalExpression)
  | [], [] => some before
  | logicalOperator :: operators, child :: rest => do
      let op <- connective? logicalOperator
      let operand <- operandOf child
      joinChildren (.join before 0 op 0 operand) operators rest
  | _, _ => none

end

def expressionOf (predicate : PredicateObject) : Option (Expression RelationalExpression) :=
  match operandOf predicate with
  | none => none
  | some (.atom content) => some (.single (.atom content))
  | some (.group _ body _) => some body

def connectiveText : Connective -> Text
  | .and => text " and "
  | .or => text " or "

mutual

def operandText (leaf : RelationalExpression -> Text) : Operand RelationalExpression -> Text
  | .atom content => leaf content
  | .group _ body _ => text "(" ++ expressionText leaf body ++ text ")"

def expressionText (leaf : RelationalExpression -> Text) : Expression RelationalExpression -> Text
  | .single operand => operandText leaf operand
  | .join left _ op _ right =>
    expressionText leaf left ++ connectiveText op ++ operandText leaf right

end

/-- What becomes of one character. -/
def encodeCharacter (c : Char) : Text := (specialCharacterEncodings.lookup c).getD [c]

lemma longestMatch_single (encodings : List (Char × Text)) (c : Char) (rest : Text) :
    longestMatch (encodings.map fun entry => ([entry.1], entry.2)) (c :: rest) =
      (encodings.lookup c).map fun replacement => ([c], replacement) := by
  have found : ∀ (entries : List (Char × Text)) (replacement : Text),
      (entries.map fun entry => ([entry.1], entry.2)).foldl
        (fun best candidate => if candidate.1.isPrefixOf (c :: rest) &&
          best.all (fun found => found.1.length < candidate.1.length)
          then some candidate else best) (some ([c], replacement)) = some ([c], replacement) := by
    intro entries replacement
    induction entries with
    | nil => rfl
    | cons entry later ih =>
      rw [map_cons, foldl_cons, if_neg]
      · exact ih
      · simp
  unfold longestMatch
  induction encodings with
  | nil => rfl
  | cons entry later ih =>
    rcases entry with ⟨special, replacement⟩
    rw [map_cons, foldl_cons, lookup_cons]
    by_cases same : c = special
    · subst same
      simp only [List.isPrefixOf, beq_self_eq_true, Bool.and_self, all_none,
        if_true, found, map_some]
    · have differs : (special == c) = false := beq_false_of_ne fun equal => same equal.symm
      simp only [List.isPrefixOf, differs, beq_false_of_ne same]
      exact ih

lemma encode_eq (filterString : Text) :
    encodeSpecialCharacters filterString = filterString.flatMap encodeCharacter := by
  unfold encodeSpecialCharacters strReplaceAll
  induction filterString with
  | nil => rfl
  | cons c rest ih =>
    rw [strReplaceFrom, longestMatch_single, flatMap_cons, encodeCharacter]
    cases specialCharacterEncodings.lookup c with
    | none =>
      simp only [ih]
      rfl
    | some replacement =>
      simp only [map_some, length_singleton, ih]
      rfl

lemma encode_append (first second : Text) :
    encodeSpecialCharacters (first ++ second) =
      encodeSpecialCharacters first ++ encodeSpecialCharacters second := by
  rw [encode_eq, encode_eq, encode_eq, flatMap_append]

lemma encode_idempotent (filterString : Text) :
    encodeSpecialCharacters (encodeSpecialCharacters filterString) =
      encodeSpecialCharacters filterString := by
  have plain : ∀ entry ∈ specialCharacterEncodings, entry.2.flatMap encodeCharacter = entry.2 := by
    decide
  have once : ∀ c, (encodeCharacter c).flatMap encodeCharacter = encodeCharacter c := by
    intro c
    cases found : specialCharacterEncodings.lookup c with
    | none => simp [encodeCharacter, found]
    | some replacement =>
      rcases lookup_eq_some_iff.mp found with ⟨before, after, split, -⟩
      have member : (c, replacement) ∈ specialCharacterEncodings := by
        rw [split]
        exact mem_append_right _ (.head _)
      have kept := plain _ member
      simp only [encodeCharacter, found] at kept ⊢
      exact kept
  simp only [encode_eq, flatMap_assoc, once]

/-- The value of a hexadecimal digit. -/
def hexDigit? (c : Char) : Option Nat :=
  if '0' <= c ∧ c <= '9' then some (c.toNat - '0'.toNat)
  else if 'A' <= c ∧ c <= 'F' then some (c.toNat - 'A'.toNat + 10)
  else if 'a' <= c ∧ c <= 'f' then some (c.toNat - 'a'.toNat + 10)
  else none

/-- Decode every percent sign that is followed by two hexadecimal digits. -/
def percentDecode : Text -> Text
  | '%' :: high :: low :: rest =>
    match hexDigit? high, hexDigit? low with
    | some first, some second => Char.ofNat (16 * first + second) :: percentDecode rest
    | _, _ => '%' :: percentDecode (high :: low :: rest)
  | c :: rest => c :: percentDecode rest
  | [] => []

/-- A character stays unless it starts an escape. -/
lemma percentDecode_cons {c : Char} {rest : Text}
    (plain : c = '%' -> ∀ high low later, rest = high :: low :: later ->
      hexDigit? high = none ∨ hexDigit? low = none) :
    percentDecode (c :: rest) = c :: percentDecode rest := by
  conv_lhs => unfold percentDecode
  split
  case h_1 high low later same =>
    rcases cons.inj same with ⟨rfl, rfl⟩
    rcases plain rfl high low later rfl with none | none
    · rw [none]
    · rw [none]
      cases hexDigit? high with
      | none => rfl
      | some _ => rfl
  case h_2 first others _ same =>
    rcases cons.inj same with ⟨rfl, rfl⟩
    rfl
  case h_3 same => cases same

/-- A text that is empty or starts with a percent sign does not change what comes before
it. -/
lemma percentDecode_append (first second : Text)
    (apart : second = [] ∨ ∃ rest, second = '%' :: rest) :
    percentDecode (first ++ second) = percentDecode first ++ percentDecode second := by
  fun_induction percentDecode first with
  | case1 high low rest one other foundHigh foundLow ih =>
    simp only [cons_append, percentDecode, foundHigh, foundLow, ih]
  | case2 high low rest broken ih =>
    rw [cons_append, percentDecode_cons, ih]
    · rfl
    · rintro - upper lower later same
      rcases cons.inj same with ⟨rfl, sameRest⟩
      rcases cons.inj sameRest with ⟨rfl, -⟩
      cases isUpper : hexDigit? high with
      | none => exact .inl rfl
      | some one =>
        cases isLower : hexDigit? low with
        | none => exact .inr rfl
        | some other => exact (broken one other isUpper isLower).elim
  | case3 c rest short ih =>
    rw [cons_append, percentDecode_cons, ih]
    · rfl
    · -- Behind a percent sign there is at most one character before the second text.
      rintro rfl high low later same
      cases rest with
      | nil =>
        rcases apart with rfl | ⟨more, rfl⟩
        · cases same
        · rcases cons.inj same with ⟨rfl, -⟩
          exact .inl rfl
      | cons only rest =>
        cases rest with
        | nil =>
          rcases apart with rfl | ⟨more, rfl⟩
          · cases same
          · rcases cons.inj same with ⟨rfl, sameRest⟩
            rcases cons.inj sameRest with ⟨rfl, -⟩
            exact .inr rfl
        | cons next rest => exact (short only next rest rfl rfl).elim
  | case4 => rfl

section

variable (simpleAtof : Text -> Bool)

def leafText (content : RelationalExpression) : Text :=
  let transformed := applyTransformsToExpression simpleAtof content
  transformed.lhs ++ transformed.relOperator ++ transformed.rhs

def decodedLeafText (content : RelationalExpression) : Text :=
  percentDecode (encodeSpecialCharacters (leafText simpleAtof content))

variable {simpleAtof}

lemma relationalExpressionToString_leaf {content : RelationalExpression}
    (relational : content.propertyName.isEmpty = true) :
    relationalExpressionToString (applyTransformsToExpression simpleAtof content) =
      .ok (leafText simpleAtof content) := by
  rw [relationalExpressionToString, applyTransformsToExpression, if_pos relational]
  rfl

/-- The separators of a filter are complete escapes. -/
lemma percentDecode_connective (op : Connective) (rest : Text) :
    percentDecode (encodeSpecialCharacters (connectiveText op) ++ rest) =
      connectiveText op ++ percentDecode rest := by
  cases op with
  | and => rfl
  | or => rfl

lemma percentDecode_opening (rest : Text) :
    percentDecode (encodeSpecialCharacters (text "(") ++ rest) = text "(" ++ percentDecode rest :=
  rfl

lemma percentDecode_closing (rest : Text) :
    percentDecode (encodeSpecialCharacters (text ")") ++ rest) = text ")" ++ percentDecode rest :=
  rfl

lemma encoded_connective_starts (op : Connective) (rest : Text) :
    ∃ more, encodeSpecialCharacters (connectiveText op) ++ rest = '%' :: more := by
  cases op with
  | and => exact ⟨_, rfl⟩
  | or => exact ⟨_, rfl⟩

mutual

theorem percentDecode_operandText (operand : Operand RelationalExpression) {rest : Text}
    (apart : rest = [] ∨ ∃ more, rest = '%' :: more) :
    percentDecode (encodeSpecialCharacters (operandText (leafText simpleAtof) operand) ++ rest) =
      operandText (decodedLeafText simpleAtof) operand ++ percentDecode rest := by
  cases operand with
  | atom content => exact percentDecode_append _ _ apart
  | group after body before =>
    have closing : ∃ more, encodeSpecialCharacters (text ")") ++ rest = '%' :: more := ⟨_, rfl⟩
    have inner := percentDecode_expressionText body (.inr closing)
    rw [operandText, operandText, encode_append, encode_append, append_assoc, append_assoc,
      append_assoc, append_assoc, percentDecode_opening, inner, percentDecode_closing]

theorem percentDecode_expressionText (expression : Expression RelationalExpression) {rest : Text}
    (apart : rest = [] ∨ ∃ more, rest = '%' :: more) :
    percentDecode (encodeSpecialCharacters (expressionText (leafText simpleAtof) expression) ++
        rest) =
      expressionText (decodedLeafText simpleAtof) expression ++ percentDecode rest := by
  cases expression with
  | single operand => exact percentDecode_operandText operand apart
  | join left before op after right =>
    rw [expressionText, expressionText, encode_append, encode_append, append_assoc, append_assoc,
      percentDecode_expressionText left (.inr (encoded_connective_starts op _)),
      percentDecode_connective, percentDecode_operandText right apart, append_assoc, append_assoc]

end

lemma connectiveText_of_connective? {logicalOperator : Text} {op : Connective}
    (read : connective? logicalOperator = some op) : connectiveText op = logicalOperator := by
  unfold connective? at read
  split_ifs at read with isAnd isOr
  · cases read
    exact isAnd.symm
  · cases read
    exact isOr.symm

mutual

theorem filterChild_operandOf {child : PredicateObject} {operand : Operand RelationalExpression}
    (read : operandOf child = some operand) :
    ∃ filterString,
      (if child.childPredicates.isEmpty then
          relationalExpressionToString
            (applyTransformsToExpression simpleAtof child.relationalExpression)
        else (generateFilterString simpleAtof child).map fun filterString =>
          text "(" ++ filterString ++ text ")") = .ok filterString ∧
      encodeSpecialCharacters filterString =
        encodeSpecialCharacters (operandText (leafText simpleAtof) operand) := by
  match child with
  | .mk relationalExpression logicalOperators [] =>
    rw [operandOf] at read
    split_ifs at read with relational
    cases read
    exact ⟨_, relationalExpressionToString_leaf relational, rfl⟩
  | .mk relationalExpression logicalOperators (first :: rest) =>
    rw [operandOf, bind_eq_bind, bind_eq_some_iff] at read
    rcases read with ⟨firstOperand, readFirst, read⟩
    rw [bind_eq_bind, bind_eq_some_iff] at read
    rcases read with ⟨body, readRest, read⟩
    cases read
    rcases filterChild_operandOf readFirst with ⟨firstText, ranFirst, sameFirst⟩
    rcases filterChildren_joinChildren readRest with ⟨restText, ranRest, sameRest⟩
    refine ⟨text "(" ++ encodeSpecialCharacters (firstText ++ logicalOperators.headD [] ++
      restText) ++ text ")", ?_, ?_⟩
    · rw [generateFilterString, filterChildren, ranFirst, ranRest]
      rfl
    · simp only [operandText, encode_append, encode_idempotent, sameRest, expressionText, sameFirst]

theorem filterChildren_joinChildren {before body : Expression RelationalExpression}
    {operators : List Text} {children : List PredicateObject}
    (read : joinChildren before operators children = some body) :
    ∃ filterString, filterChildren simpleAtof children operators.tail = .ok filterString ∧
      encodeSpecialCharacters (expressionText (leafText simpleAtof) body) =
        encodeSpecialCharacters (expressionText (leafText simpleAtof) before ++
          operators.headD [] ++ filterString) := by
  match operators, children with
  | [], [] =>
    cases read
    exact ⟨[], rfl, by simp⟩
  | [], child :: rest => cases read
  | logicalOperator :: later, [] => cases read
  | logicalOperator :: later, child :: rest =>
    rw [joinChildren, bind_eq_bind, bind_eq_some_iff] at read
    rcases read with ⟨op, isOperator, read⟩
    rw [bind_eq_bind, bind_eq_some_iff] at read
    rcases read with ⟨operand, readChild, read⟩
    rcases filterChild_operandOf readChild with ⟨childText, ranChild, sameChild⟩
    rcases filterChildren_joinChildren read with ⟨restText, ranRest, sameRest⟩
    refine ⟨childText ++ later.headD [] ++ restText, ?_, ?_⟩
    · rw [tail_cons, filterChildren, ranChild, ranRest]
      rfl
    · rw [sameRest]
      simp only [expressionText, encode_append, sameChild, connectiveText_of_connective? isOperator,
        headD_cons, append_assoc]

end

lemma generateFilterString_eq {predicate : PredicateObject}
    {expression : Expression RelationalExpression}
    (read : expressionOf predicate = some expression) :
    generateFilterString simpleAtof predicate =
      .ok (encodeSpecialCharacters (expressionText (leafText simpleAtof) expression)) := by
  match predicate with
  | .mk relationalExpression logicalOperators [] =>
    rw [expressionOf, operandOf] at read
    split_ifs at read with relational
    cases read
    rw [generateFilterString, relationalExpressionToString_leaf relational]
    rfl
  | .mk relationalExpression logicalOperators (first :: rest) =>
    cases readFirst : operandOf first with
    | none => simp [expressionOf, operandOf, readFirst] at read
    | some operand =>
      cases readRest : joinChildren (.single operand) logicalOperators rest with
      | none => simp [expressionOf, operandOf, readFirst, readRest] at read
      | some body =>
        simp only [expressionOf, operandOf, readFirst, readRest, bind_eq_bind,
          bind_some, Option.pure_def, Option.some.injEq] at read
        subst read
        rcases filterChild_operandOf readFirst with ⟨firstText, ranFirst, sameFirst⟩
        rcases filterChildren_joinChildren readRest with ⟨restText, ranRest, sameRest⟩
        rw [generateFilterString, filterChildren, ranFirst, ranRest, sameRest]
        simp only [expressionText, encode_append, <- sameFirst]
        rw [<- encode_append, <- encode_append]
        rfl

/-- Some expressions, joined by `or` without parentheses. -/
def disjunctionOf (first : Expression RelationalExpression)
    (rest : List (Expression RelationalExpression)) : Expression RelationalExpression :=
  rest.foldl (fun joined next => joined.append .or next) first

lemma expressionText_append (leaf : RelationalExpression -> Text)
    (left right : Expression RelationalExpression) (op : Connective) :
    expressionText leaf (left.append op right) =
      expressionText leaf left ++ connectiveText op ++ expressionText leaf right := by
  cases right with
  | single operand => rfl
  | join first before joint after operand =>
    rw [Expression.append, expressionText, expressionText_append leaf left first op,
      expressionText, append_assoc, append_assoc, append_assoc, append_assoc,
      append_assoc]

variable {first : Expression RelationalExpression} {rest : List (Expression RelationalExpression)}

lemma precedenceValue_disjunctionOf (truth : RelationalExpression -> Bool)
    (wanted : ∃ expression ∈ first :: rest, expression.precedenceValue truth = true) :
    (disjunctionOf first rest).precedenceValue truth = true := by
  induction rest generalizing first with
  | nil =>
    rcases wanted with ⟨expression, member, holds⟩
    rw [mem_singleton.mp member] at holds
    exact holds
  | cons second rest ih =>
    apply ih
    rcases wanted with ⟨expression, member, holds⟩
    rcases mem_cons.mp member with rfl | member
    · refine ⟨_, .head _, ?_⟩
      rw [Expression.precedenceValue_append_or, holds, Bool.true_or]
    · rcases mem_cons.mp member with rfl | member
      · refine ⟨_, .head _, ?_⟩
        rw [Expression.precedenceValue_append_or, holds, Bool.or_true]
      · exact ⟨expression, .tail _ member, holds⟩

lemma buildFilterFromPredicateObjects_eq {predicates : List PredicateObject}
    (read : predicates.mapM expressionOf = some (first :: rest)) :
    buildFilterFromPredicateObjects simpleAtof predicates =
      .ok (encodeSpecialCharacters
        (expressionText (leafText simpleAtof) (disjunctionOf first rest))) := by
  have filters : ∀ {objects : List PredicateObject}
      {expressions : List (Expression RelationalExpression)},
      objects.mapM expressionOf = some expressions ->
        objects.mapM (generateFilterString simpleAtof) = .ok (expressions.map fun expression =>
          encodeSpecialCharacters (expressionText (leafText simpleAtof) expression)) := by
    intro objects
    induction objects with
    | nil =>
      intro expressions listed
      cases listed
      rfl
    | cons object objects ih =>
      intro expressions listed
      rw [mapM_cons, bind_eq_bind, bind_eq_some_iff] at listed
      rcases listed with ⟨expression, readFirst, listed⟩
      rw [bind_eq_bind, bind_eq_some_iff] at listed
      rcases listed with ⟨others, readOthers, listed⟩
      cases listed
      rw [mapM_cons, generateFilterString_eq readFirst, ih readOthers]
      rfl
  have joined : ∀ (start : Expression RelationalExpression)
      (later : List (Expression RelationalExpression)),
      strJoin ((start :: later).map fun expression =>
          encodeSpecialCharacters (expressionText (leafText simpleAtof) expression))
        (text "%20or%20") =
      encodeSpecialCharacters (expressionText (leafText simpleAtof)
        (disjunctionOf start later)) := by
    intro start later
    induction later generalizing start with
    | nil => exact intercalate_singleton
    | cons next later ih =>
      change _ = encodeSpecialCharacters (expressionText (leafText simpleAtof)
        (disjunctionOf (start.append .or next) later))
      rw [<- ih, map_cons, map_cons, map_cons, expressionText_append, encode_append, encode_append]
      exact (strJoin_append _ _ _ _).symm
  rw [buildFilterFromPredicateObjects, filters read, <- joined]
  rfl

/-- The filter that is sent to the service never excludes a wanted member: if one of the predicate
objects is true when it is read from left to right, then the filter, decoded and read with
precedence, is true. -/
theorem filter_admits_wanted (simpleAtof : Text -> Bool) (predicates : List PredicateObject)
    {first : Expression RelationalExpression} {rest : List (Expression RelationalExpression)}
    (read : predicates.mapM expressionOf = some (first :: rest))
    (truth : RelationalExpression -> Bool)
    (wanted : ∃ expression ∈ first :: rest, expression.value truth = true) :
    ∃ filter, buildFilterFromPredicateObjects simpleAtof predicates = .ok filter ∧
      percentDecode filter =
        expressionText (decodedLeafText simpleAtof) (disjunctionOf first rest) ∧
      (disjunctionOf first rest).precedenceValue truth = true := by
  refine ⟨_, buildFilterFromPredicateObjects_eq read, ?_, ?_⟩
  · rw [<- List.append_nil (encodeSpecialCharacters _), percentDecode_expressionText _ (.inl rfl),
      percentDecode, List.append_nil]
  · apply precedenceValue_disjunctionOf
    rcases wanted with ⟨expression, member, holds⟩
    exact ⟨expression, member, expression.precedenceValue_of_value holds⟩

end

/-- The leaf `name=value`. -/
def equation (name value : String) : RelationalExpression :=
  ⟨text name, text "=", text value, []⟩

/-- `A=1 or B=2 and C=3` -/
def mixedPredicate : PredicateObject :=
  .mk ⟨[], [], [], []⟩ [text " or ", text " and "]
    [.mk (equation "A" "1") [] [], .mk (equation "B" "2") [] [], .mk (equation "C" "3") [] []]

theorem filter_admits_mixedPredicate :
    ∃ filter,
      buildFilterFromPredicateObjects (fun _ => false) [mixedPredicate] = .ok filter ∧
      percentDecode filter = text "A eq 1 or B eq 2 and C eq 3" := by
  have wanted : ∃ expression ∈ [Expression.join (.join (.single (.atom (equation "A" "1"))) 0 .or 0
        (.atom (equation "B" "2"))) 0 .and 0 (.atom (equation "C" "3"))],
      expression.value (fun content => content ≠ equation "B" "2") = true :=
    ⟨_, List.mem_singleton.mpr rfl, by decide⟩
  rcases filter_admits_wanted (fun _ => false) [mixedPredicate] rfl _ wanted with
    ⟨filter, built, decoded, -⟩
  refine ⟨filter, built, decoded.trans ?_⟩
  rfl

end Ecclesia.Predicates
