import Ecclesia.Absl.Replace
import Ecclesia.Json.Value

namespace Ecclesia.PathUtil

open Absl List Nat

/-!
# Node names inside one resource

A node name such as `Status.State` or `Links.Chassis[0]` names a value inside
a single payload.  The definitions follow `path_util.cc`.
-/

/-- The scan of `SplitNodeNameForNestedNodes` after the white space around is removed. -/
def splitSegments : Text -> Text -> List Text
  | [], segment => [segment]
  | '\\' :: '.' :: rest, segment => splitSegments rest (segment ++ ['.'])
  | '.' :: rest, segment => segment :: splitSegments rest []
  | c :: rest, segment => splitSegments rest (segment ++ [c])

def splitNodeNameForNestedNodes (expression : Text) : List Text :=
  let stripped := stripAsciiWhitespace expression
  if stripped.isEmpty then [] else splitSegments stripped []

/-- A character that may follow the first one in the name of a valid property
path segment. -/
def isSegmentCharacter (c : Char) : Bool :=
  asciiIsAlnum c || c == '_' || c == '#' || c == '@' || c == '.'

/-- `SplitNodeNameIfArrayType`: the name and the index of `name[index]`. -/
def splitNodeNameIfArrayType (nodeName : Text) : Option (Text × Int) :=
  match nodeName.span (fun c => c != '[') with
  | (name, '[' :: bracketed) =>
    match name, bracketed.reverse with
    | first :: second :: others, ']' :: reversedIndex =>
      let index := reversedIndex.reverse
      if (asciiIsAlpha first || first == '#' || first == '@') &&
          (second :: others).all isSegmentCharacter && index.all asciiIsDigit then
        (simpleAtoi32 index).map fun value => (name, value)
      else none
    | _, _ => none
  | _ => none

/-- One step of `ResolveRedPathNodeToJson`. -/
def processNodeName (name : Text) (value : Json) : Evaluation Json :=
  let indexed :=
    if endsWith name (text "]") then splitNodeNameIfArrayType name else none
  let nodeName := match indexed with
    | some (stripped, _) => stripped
    | none => name
  match value.find nodeName with
  | none => .internal (text "Node " ++ nodeName ++ text " not found in json object")
  | some found =>
    match indexed with
    | some (_, index) => if 0 <= index then found.atIndex index.toNat else .ok found
    | none => .ok found

def resolveRedPathNodeToJson (value : Json) (nodeName : Text) : Evaluation Json :=
  match splitNodeNameForNestedNodes nodeName with
  | [] => .internal (text "Given NodeName is empty or invalid.")
  | first :: rest => do
      let resolved <- processNodeName first value
      rest.foldlM (fun current name => processNodeName name current) resolved

/-! ## Expressions of a text -/

/-- The scan of `SplitExprByDelimiterWithEscape`, with the character before the current one. -/
def splitUnescaped (delimiter escapeCharacter : Char) : Char -> Text -> Text -> List Text
  | _, current, [] => [current]
  | previous, current, c :: rest =>
    if c = delimiter ∧ previous ≠ escapeCharacter then
      current :: splitUnescaped delimiter escapeCharacter c [] rest
    else splitUnescaped delimiter escapeCharacter c (current ++ [c]) rest

/-- `SplitExprByDelimiterWithEscape` with a delimiter of one character, which is skipped
at the start. -/
def splitExprByDelimiterWithEscape (expression : Text) (delimiter escapeCharacter : Char) :
    List Text :=
  match stripAsciiWhitespace expression with
  | [] => []
  | c :: rest =>
    splitUnescaped delimiter escapeCharacter c (if c = delimiter then [] else [c]) rest

open Absl

/-!
## Splitting expressions

The scanner that takes a node name apart replaces a chain of replacements and a split at blanks, and
it finds the same segments.  The splitter at a delimiter takes any text as the delimiter, but it
steps over one character of it, and so it loses nothing just with delimiters of one character.

The definitions follow `path_util.cc`, and the replaced splitter `path_util_test.cc`.
-/

/-! ## The replaced splitter -/

def blankedDots (t : Text) : Text :=
  strReplaceAll (strReplaceAll t [(text ".", text " ")]) [(text "\\ ", text ".")]

/-- `LegacySplitNodeNameForNestedNodes` -/
def legacySplitNodeNameForNestedNodes (expression : Text) : List Text :=
  let stripped := stripAsciiWhitespace expression
  if stripped.isEmpty then [] else strSplit ' ' (blankedDots stripped)

lemma strReplaceAll_character (old new : Char) (t : Text) :
    strReplaceAll t [([old], [new])] = t.map fun c => if c = old then new else c := by
  induction t with
  | nil => rfl
  | cons c rest ih =>
    by_cases same : c = old
    · subst same
      rw [map_cons, if_pos rfl, <- ih]
      exact strReplaceAll_pattern (cons_ne_nil c []) rest
    · rw [map_cons, if_neg same, strReplaceAll_cons, ih]
      rintro ⟨after, begins⟩
      exact same (cons.inj begins).1.symm

lemma blankedDots_eq (t : Text) : blankedDots t =
    strReplaceAll (t.map fun c => if c = '.' then ' ' else c) [(['\\', ' '], ['.'])] :=
  congrArg (fun replaced => strReplaceAll replaced _) (strReplaceAll_character '.' ' ' t)

lemma blankedDots_escaped (rest : Text) :
    blankedDots ('\\' :: '.' :: rest) = '.' :: blankedDots rest := by
  exact strReplaceAll_pattern (cons_ne_nil _ _) _

lemma blankedDots_dot (rest : Text) : blankedDots ('.' :: rest) = ' ' :: blankedDots rest := by
  rw [blankedDots_eq, blankedDots_eq, map_cons, if_pos rfl, strReplaceAll_cons]
  rintro ⟨after, begins⟩
  exact absurd (cons.inj begins).1 (by decide)

lemma blankedDots_push {c : Char} {rest : Text} (notDot : c ≠ '.')
    (unescaped : ∀ later, c = '\\' -> rest ≠ '.' :: later) (noBlank : ' ' ∉ rest) :
    blankedDots (c :: rest) = c :: blankedDots rest := by
  rw [blankedDots_eq, blankedDots_eq, map_cons, if_neg notDot, strReplaceAll_cons]
  rintro ⟨after, begins⟩
  have parts := cons.inj begins
  cases rest with
  | nil => cases parts.2
  | cons d others =>
    have blank := (cons.inj parts.2).1
    by_cases dot : d = '.'
    · exact unescaped others parts.1.symm (by rw [dot])
    · exact noBlank (mem_cons.mpr (.inl (blank.trans (if_neg dot))))

lemma splitSegments_eq {t : Text} (noBlank : ' ' ∉ t) {segment : Text} (plain : ' ' ∉ segment) :
    splitSegments t segment = strSplit ' ' (segment ++ blankedDots t) := by
  fun_induction splitSegments t segment with
  | case1 segment =>
    have nothing : blankedDots [] = [] := rfl
    rw [nothing, append_nil]
    exact (splitOn_eq_singleton plain).symm
  | case2 rest segment ih =>
    have later : ' ' ∉ rest := fun member =>
      noBlank (.tail _ (.tail _ member))
    have longer : ' ' ∉ segment ++ ['.'] := by
      rw [mem_append, not_or]
      exact ⟨plain, by decide⟩
    rw [ih later longer, blankedDots_escaped, append_assoc, singleton_append]
  | case3 rest segment ih =>
    have later : ' ' ∉ rest := fun member => noBlank (.tail _ member)
    rw [ih later not_mem_nil, blankedDots_dot, strSplit, strSplit,
      splitOn_append_cons_self, splitOn_eq_singleton plain]
    rfl
  | case4 c rest segment unescaped notDot ih =>
    have later : ' ' ∉ rest := fun member => noBlank (.tail _ member)
    have longer : ' ' ∉ segment ++ [c] := by
      rw [mem_append, not_or, mem_singleton]
      exact ⟨plain, fun same => noBlank (same ▸ (.head _))⟩
    rw [ih later longer, blankedDots_push notDot unescaped later, append_assoc, singleton_append]

/-- Without blanks inside, both splitters find the same segments. -/
theorem splitNodeNameForNestedNodes_eq_legacy : ∀ expression,
    ' ' ∉ stripAsciiWhitespace expression ->
      splitNodeNameForNestedNodes expression = legacySplitNodeNameForNestedNodes expression := by
  intro expression noBlank
  rw [splitNodeNameForNestedNodes, legacySplitNodeNameForNestedNodes]
  split
  next => rfl
  next => exact splitSegments_eq noBlank List.not_mem_nil

/-- The name of an action, and a property behind it. -/
theorem splitNodeNameForNestedNodes_eq_legacy_action :
    splitNodeNameForNestedNodes (text " Actions.#Chassis\\.Reset.. ") =
      legacySplitNodeNameForNestedNodes (text " Actions.#Chassis\\.Reset.. ") :=
  splitNodeNameForNestedNodes_eq_legacy _ (by decide)

/-! ## Splitting at a delimiter -/

namespace Delimited

/-- Where a pattern is found first in a rest that begins at a position. -/
def findFrom (pattern : Text) (position : Nat) : Text -> Option Nat
  | [] => none
  | c :: rest =>
    if pattern.isPrefixOf (c :: rest) then some position else findFrom pattern (position + 1) rest

/-- `find` of a pattern that is not empty. -/
def find (t pattern : Text) (start : Nat) : Option Nat :=
  findFrom pattern start (t.drop start)

/-- The text between two positions, if there is one. -/
def between (t : Text) (start finish : Nat) : Option Text :=
  if start <= finish ∧ finish <= t.length then some ((t.take finish).drop start) else none

/-- The loop of `SplitExprByDelimiterWithEscape`; there is no result if it reads outside. -/
def splitLoop (expression delimiter : Text) (escapeCharacter : Char) :
    Nat -> Nat -> Option Nat -> Option (List Text)
  | _, startOfExpr, none => (between expression startOfExpr expression.length).map fun last => [last]
  | 0, _, some _ => none
  | turns + 1, startOfExpr, some nextSeparatorAt => do
      let before <- if nextSeparatorAt = 0 then none else expression[nextSeparatorAt - 1]?
      let later := find expression delimiter (nextSeparatorAt + 1)
      if before ≠ escapeCharacter then
        let piece <- between expression startOfExpr nextSeparatorAt
        let pieces <- splitLoop expression delimiter escapeCharacter turns (nextSeparatorAt + 1) later
        some (piece :: pieces)
      else splitLoop expression delimiter escapeCharacter turns startOfExpr later

/-- `SplitExprByDelimiterWithEscape` with any delimiter.  The position grows in each turn. -/
def splitExprByDelimiterWithEscape (expression delimiter : Text) (escapeCharacter : Char) :
    Option (List Text) :=
  let stripped := stripAsciiWhitespace expression
  if stripped.isEmpty then some []
  else
    match find stripped delimiter 0 with
    | some 0 =>
      splitLoop stripped delimiter escapeCharacter stripped.length 1 (find stripped delimiter 1)
    | first => splitLoop stripped delimiter escapeCharacter stripped.length 0 first

/-! ## What is found -/

section

variable {pattern t : Text}

lemma findFrom_none (present : pattern ≠ []) {position : Nat}
    (nothing : findFrom pattern position t = none) (i : Nat) : ¬ pattern <+: t.drop i := by
  induction t generalizing position i with
  | nil =>
    rw [drop_nil]
    exact fun begins => present (prefix_nil.mp begins)
  | cons c rest ih =>
    rw [findFrom] at nothing
    split at nothing
    next => cases nothing
    next differs =>
      cases i with
      | zero => exact fun begins => differs (List.isPrefixOf_iff_prefix.mpr begins)
      | succ i => exact ih nothing i

lemma findFrom_some {position found : Nat} (isFound : findFrom pattern position t = some found) :
    ∃ i, found = position + i ∧ i < t.length ∧ pattern <+: t.drop i ∧
      ∀ j, j < i -> ¬ pattern <+: t.drop j := by
  induction t generalizing position with
  | nil => cases isFound
  | cons c rest ih =>
    rw [findFrom] at isFound
    split at isFound
    next begins =>
      refine ⟨0, (Option.some.inj isFound).symm, zero_lt_succ _,
        List.isPrefixOf_iff_prefix.mp begins, ?_⟩
      exact fun j impossible => absurd impossible (Nat.not_lt_zero j)
    next differs =>
      rcases ih isFound with ⟨i, same, within, begins, first⟩
      refine ⟨i + 1, by omega, succ_lt_succ within, begins, ?_⟩
      intro j before
      cases j with
      | zero => exact fun begins => differs (List.isPrefixOf_iff_prefix.mpr begins)
      | succ j => exact first j (lt_of_succ_lt_succ before)

lemma find_none (present : pattern ≠ []) {start : Nat} (nothing : find t pattern start = none)
    {i : Nat} (behind : start <= i) : ¬ pattern <+: t.drop i := by
  have differs := findFrom_none present nothing (i - start)
  rwa [drop_drop, Nat.add_sub_cancel' behind] at differs

lemma find_some {start found : Nat} (isFound : find t pattern start = some found) :
    start <= found ∧ found < t.length ∧ pattern <+: t.drop found ∧
      ∀ j, start <= j -> j < found -> ¬ pattern <+: t.drop j := by
  rcases findFrom_some isFound with ⟨i, rfl, within, begins, first⟩
  rw [length_drop] at within
  rw [drop_drop] at begins
  refine ⟨Nat.le_add_right start i, by omega, begins, ?_⟩
  intro j behind before
  have differs := first (j - start) (by omega)
  rwa [drop_drop, Nat.add_sub_cancel' behind] at differs

end

/-! ## The cuts -/

section

variable (expression delimiter : Text) (escapeCharacter : Char)

/-- The delimiter is here, and the character in front of it is not the one that escapes it. -/
def SeparatesAt (i : Nat) : Prop :=
  delimiter <+: expression.drop i ∧ (i = 0 ∨ expression[i - 1]? ≠ some escapeCharacter)

/-- The pieces from a start on. A piece ends at the first separator, a character before the next. -/
inductive Cuts : Nat -> List Text -> Prop where
  | last {start : Nat}
      (none : ∀ i, start <= i -> ¬ SeparatesAt expression delimiter escapeCharacter i) :
      Cuts start [expression.drop start]
  | cut {start position : Nat} {pieces : List Text} (behind : start <= position)
      (within : position < expression.length)
      (separates : SeparatesAt expression delimiter escapeCharacter position)
      (first : ∀ i, start <= i -> i < position ->
        ¬ SeparatesAt expression delimiter escapeCharacter i)
      (rest : Cuts (position + 1) pieces) :
      Cuts start ((expression.take position).drop start :: pieces)

end

variable {expression delimiter : Text} {escapeCharacter : Char}

lemma splitLoop_none (present : delimiter ≠ []) (turns : Nat) {start position : Nat}
    (within : start <= expression.length) (nothing : find expression delimiter position = none)
    (seen : ∀ i, start <= i -> i < position ->
      ¬ SeparatesAt expression delimiter escapeCharacter i) :
    ∃ pieces, splitLoop expression delimiter escapeCharacter turns start none = some pieces ∧
      Cuts expression delimiter escapeCharacter start pieces := by
  have whole : between expression start expression.length = some (expression.drop start) := by
    rw [between, if_pos ⟨within, le_rfl⟩, take_length]
  refine ⟨[expression.drop start], ?_, .last ?_⟩
  · cases turns <;> rw [splitLoop, whole] <;> rfl
  · intro i after separates
    by_cases early : i < position
    · exact seen i after early separates
    · exact find_none present nothing (Nat.le_of_not_lt early) separates.1

lemma splitLoop_cuts (present : delimiter ≠ []) {turns start position : Nat}
    (positive : 0 < position) (behind : start <= position) (within : position <= expression.length)
    (enough : expression.length <= turns + position) (seen : ∀ i, start <= i -> i < position ->
      ¬ SeparatesAt expression delimiter escapeCharacter i) :
    ∃ pieces, splitLoop expression delimiter escapeCharacter turns start
        (find expression delimiter position) = some pieces ∧
      Cuts expression delimiter escapeCharacter start pieces := by
  induction turns generalizing start position with
  | zero =>
    have atEnd : expression.drop position = [] := drop_eq_nil_of_le (by omega)
    have nothing : find expression delimiter position = none := by
      rw [find, atEnd]
      rfl
    rw [nothing]
    exact splitLoop_none present 0 (by omega) nothing seen
  | succ turns ih =>
    cases isFound : find expression delimiter position with
    | none => exact splitLoop_none present (turns + 1) (by omega) isFound seen
    | some next =>
      rcases find_some isFound with ⟨later, inside, begins, first⟩
      have unseen : ∀ i, start <= i -> i < next ->
          ¬ SeparatesAt expression delimiter escapeCharacter i := by
        intro i after before
        by_cases early : i < position
        · exact seen i after early
        · exact fun separates => first i (Nat.le_of_not_lt early) before separates.1
      have read : next - 1 < expression.length := by omega
      have notStart : next ≠ 0 := by omega
      rw [splitLoop, if_neg notStart, getElem?_eq_getElem read]
      by_cases escaped : expression[next - 1] = escapeCharacter
      · have passes : ∀ i, start <= i -> i < next + 1 ->
            ¬ SeparatesAt expression delimiter escapeCharacter i := by
          intro i after before
          rcases Nat.lt_succ_iff_lt_or_eq.mp before with earlier | rfl
          · exact unseen i after earlier
          · rintro ⟨-, atStart | differs⟩
            · exact notStart atStart
            · exact differs ((getElem?_eq_getElem read).trans (congrArg some escaped))
        rcases ih (succ_pos next) (by omega) inside (by omega) passes with ⟨pieces, looped, cuts⟩
        refine ⟨pieces, ?_, cuts⟩
        rw [<- looped]
        exact if_neg (not_not.mpr escaped)
      · have separates : SeparatesAt expression delimiter escapeCharacter next := by
          refine ⟨begins, .inr ?_⟩
          rw [getElem?_eq_getElem read]
          exact fun same => escaped (Option.some.inj same)
        have fresh : ∀ i, next + 1 <= i -> i < next + 1 ->
            ¬ SeparatesAt expression delimiter escapeCharacter i :=
          fun i after before => absurd before (Nat.not_lt.mpr after)
        rcases ih (succ_pos next) (le_rfl) inside (by omega) fresh with ⟨pieces, looped, cuts⟩
        refine ⟨_, ?_, .cut (by omega) inside separates unseen cuts⟩
        have piece : between expression start next =
            some ((expression.take next).drop start) := if_pos ⟨by omega, Nat.le_of_lt inside⟩
        refine (if_pos escaped).trans ?_
        rw [piece, looped]
        rfl

/-! ## The pieces and the expression -/

lemma Cuts.ne_nil {start : Nat} {pieces : List Text}
    (cuts : Cuts expression delimiter escapeCharacter start pieces) : pieces ≠ [] := by
  cases cuts with
  | last => exact cons_ne_nil _ _
  | cut => exact cons_ne_nil _ _

lemma Cuts.join {c : Char} {start : Nat} {pieces : List Text}
    (cuts : Cuts expression [c] escapeCharacter start pieces) :
    strJoin pieces [c] = expression.drop start := by
  induction cuts with
  | last => exact intercalate_singleton
  | @cut start position pieces behind within separates _ rest ih =>
    have atPosition : expression.drop position = c :: expression.drop (position + 1) := by
      rcases separates.1 with ⟨after, same⟩
      rw [<- tail_drop, <- same]
      rfl
    rw [strJoin, intercalate_cons_of_ne_nil rest.ne_nil]
    rw [strJoin] at ih
    rw [ih, append_assoc, singleton_append, <- atPosition, drop_take]
    conv => rhs; rw [<- take_append_drop (position - start) (expression.drop start)]
    rw [drop_drop, Nat.add_sub_cancel' behind]

lemma Cuts.length_join {start : Nat} {pieces : List Text}
    (cuts : Cuts expression delimiter escapeCharacter start pieces)
    (within : start <= expression.length) :
    (strJoin pieces delimiter).length + (pieces.length - 1) =
      expression.length - start + (pieces.length - 1) * delimiter.length := by
  induction cuts with
  | last =>
    rw [strJoin, intercalate_singleton, length_drop, length_singleton, Nat.zero_mul]
  | @cut start position pieces behind inside _ _ rest ih =>
    have counted := ih inside
    have some_ : 0 < pieces.length := length_pos_of_ne_nil rest.ne_nil
    rcases Nat.exists_eq_add_of_lt some_ with ⟨more, isMore⟩
    rw [strJoin, intercalate_cons_of_ne_nil rest.ne_nil]
    rw [strJoin, isMore] at counted
    rw [length_append, length_append, length_drop, length_take, length_cons, isMore]
    simp only [Nat.add_sub_cancel, Nat.add_one_mul] at counted ⊢
    omega

/-! ## Delimiters in the pieces -/

def charBefore (before : Option Char) (piece : Text) : Nat -> Option Char
  | 0 => before
  | i + 1 => piece[i]?

/-- In each piece the delimiters are escaped. The later pieces follow the end of a delimiter. -/
def AllEscaped (delimiter : Text) (escapeCharacter : Char) : Option Char -> List Text -> Prop
  | _, [] => True
  | before, piece :: rest =>
    (∀ i, delimiter <+: piece.drop i -> charBefore before piece i = some escapeCharacter) ∧
      AllEscaped delimiter escapeCharacter delimiter.getLast? rest

/-- The character in front of a position. -/
def frontOf (expression : Text) (start : Nat) : Option Char :=
  if start = 0 then none else expression[start - 1]?

lemma escaped_piece {start finish : Nat} (present : delimiter ≠ [])
    (first : ∀ i, start <= i -> i < finish ->
      ¬ SeparatesAt expression delimiter escapeCharacter i) {i : Nat}
    (begins : delimiter <+: ((expression.take finish).drop start).drop i) :
    charBefore (frontOf expression start) ((expression.take finish).drop start) i =
      some escapeCharacter := by
  rw [drop_drop, drop_take] at begins
  have inside : start + i < finish := by
    have long := begins.length_le
    have positive := length_pos_of_ne_nil present
    rw [length_take] at long
    omega
  have escaped := first (start + i) (Nat.le_add_right start i) inside
  rw [SeparatesAt, not_and_or, not_or, not_not] at escaped
  rcases escaped with absent | ⟨notStart, escaped⟩
  · exact absurd (begins.trans (List.take_prefix _ _)) absent
  · cases i with
    | zero => exact (if_neg notStart).trans escaped
    | succ i =>
      rw [charBefore, getElem?_drop, getElem?_take_of_lt (by omega)]
      exact escaped

lemma Cuts.allEscaped {c : Char} {start : Nat} {pieces : List Text}
    (cuts : Cuts expression [c] escapeCharacter start pieces) :
    AllEscaped [c] escapeCharacter (frontOf expression start) pieces := by
  induction cuts with
  | @last start none =>
    refine ⟨fun i begins => ?_, trivial⟩
    have whole : expression.drop start = (expression.take expression.length).drop start := by
      rw [take_length]
    rw [whole] at begins ⊢
    exact escaped_piece (cons_ne_nil c []) (fun i after _ => none i after) begins
  | @cut start position pieces behind within separates first rest ih =>
    refine ⟨fun i begins => escaped_piece (cons_ne_nil c []) first begins, ?_⟩
    have last : frontOf expression (position + 1) = [c].getLast? := by
      rcases separates.1 with ⟨after, same⟩
      have atPosition := congrArg (fun t => t[0]?) same
      rw [getElem?_drop] at atPosition
      exact atPosition.symm
    rw [<- last]
    exact ih

/-! ## What is lost -/

/-- The expression without the white space around it, less a delimiter at its start. -/
def withoutLead (stripped delimiter : Text) : Text :=
  if delimiter <+: stripped then stripped.drop delimiter.length else stripped

/-- The pieces join to the expression, and no delimiter in them would have separated. -/
def Lossless (expression delimiter : Text) (escapeCharacter : Char) : Prop :=
  ∃ pieces, splitExprByDelimiterWithEscape expression delimiter escapeCharacter = some pieces ∧
    strJoin pieces delimiter = withoutLead (stripAsciiWhitespace expression) delimiter ∧
    AllEscaped delimiter escapeCharacter
      (if delimiter <+: stripAsciiWhitespace expression then delimiter.getLast? else none) pieces

lemma split_cuts (present : delimiter ≠ []) (visible : stripAsciiWhitespace expression ≠ []) :
    ∃ pieces, splitExprByDelimiterWithEscape expression delimiter escapeCharacter =
        some pieces ∧
      Cuts (stripAsciiWhitespace expression) delimiter escapeCharacter
        (if delimiter <+: stripAsciiWhitespace expression then 1 else 0) pieces := by
  rw [splitExprByDelimiterWithEscape]
  generalize stripAsciiWhitespace expression = stripped at visible
  have long := length_pos_of_ne_nil visible
  have fresh (start : Nat) : ∀ i, start <= i -> i < start ->
      ¬ SeparatesAt stripped delimiter escapeCharacter i :=
    fun i after before => absurd before (Nat.not_lt.mpr after)
  rw [if_neg (by simpa using visible)]
  by_cases leads : delimiter <+: stripped
  · have atStart : find stripped delimiter 0 = some 0 := by
      cases isFound : find stripped delimiter 0 with
      | none => exact absurd leads (find_none present isFound (Nat.le_refl 0))
      | some found =>
        cases found with
        | zero => rfl
        | succ found =>
          exact absurd leads ((find_some isFound).2.2.2 0 (Nat.le_refl 0) (succ_pos found))
    rw [atStart, if_pos leads]
    exact splitLoop_cuts present Nat.one_pos (Nat.le_refl 1) long (by omega) (fresh 1)
  · rw [if_neg leads]
    have notStart : ¬ SeparatesAt stripped delimiter escapeCharacter 0 := fun at0 => leads at0.1
    -- Looking from the start or from the next character makes no difference then.
    have same : find stripped delimiter 0 = find stripped delimiter 1 := by
      cases stripped with
      | nil => exact absurd rfl visible
      | cons c rest => exact if_neg (mt List.isPrefixOf_iff_prefix.mp leads)
    have looped := @splitLoop_cuts _ _ escapeCharacter present stripped.length 0 1 Nat.one_pos
      (Nat.zero_le 1) long (by omega) fun i _ before => lt_one_iff.mp before ▸ notStart
    split
    next atStart =>
      exact absurd (find_some atStart).2.2.1 leads
    next => rwa [same]

lemma lossless_of_nil (present : delimiter ≠ []) (blank : stripAsciiWhitespace expression = []) :
    Lossless expression delimiter escapeCharacter := by
  have absent : ¬ delimiter <+: [] := fun begins => present (prefix_nil.mp begins)
  refine ⟨[], ?_, ?_, trivial⟩
  · rw [splitExprByDelimiterWithEscape, blank]
    rfl
  · rw [blank, withoutLead, if_neg absent]
    rfl

lemma Cuts.unseparated {pieces : List Text} (long : 1 < delimiter.length)
    (visible : 0 < expression.length) (cuts : Cuts expression delimiter escapeCharacter
      (if delimiter <+: expression then 1 else 0) pieces) (joined : strJoin pieces delimiter =
      if delimiter <+: expression then expression.drop delimiter.length else expression) (i : Nat)
    (begins : delimiter <+: expression.drop i) :
    0 < i ∧ expression[i - 1]? = some escapeCharacter := by
  have twice : (pieces.length - 1) * 2 <= (pieces.length - 1) * delimiter.length :=
    Nat.mul_le_mul_left _ long
  by_cases leads : delimiter <+: expression
  · rw [if_pos leads] at cuts joined
    have counted := cuts.length_join visible
    have fits := leads.length_le
    rw [joined, length_drop] at counted
    omega
  · rw [if_neg leads] at cuts joined
    have counted := cuts.length_join (Nat.zero_le _)
    rw [joined] at counted
    cases cuts with
    | last none =>
      have escaped := none i (Nat.zero_le i)
      rw [SeparatesAt, not_and_or, not_or, not_not] at escaped
      exact (escaped.resolve_left (not_not.mpr begins)).imp_left Nat.pos_of_ne_zero
    | cut _ _ _ _ rest =>
      have some_ := length_pos_of_ne_nil rest.ne_nil
      rw [length_cons] at counted twice
      omega

lemma Cuts.lossless {c : Char} {pieces : List Text}
    (cuts : Cuts expression [c] escapeCharacter (if [c] <+: expression then 1 else 0) pieces) :
    strJoin pieces [c] =
        (if [c] <+: expression then expression.drop [c].length else expression) ∧
      AllEscaped [c] escapeCharacter (if [c] <+: expression then [c].getLast? else none)
        pieces := by
  have escaped := cuts.allEscaped
  rw [cuts.join]
  by_cases leads : [c] <+: expression
  · rw [if_pos leads] at escaped
    rw [if_pos leads, if_pos leads, if_pos leads]
    refine ⟨rfl, ?_⟩
    rcases leads with ⟨after, rfl⟩
    exact escaped
  · rw [if_neg leads] at escaped
    rw [if_neg leads, if_neg leads, if_neg leads]
    exact ⟨rfl, escaped⟩

/-- The splitter loses nothing exactly if the delimiter is one character, or if there is nothing to
split. -/
theorem lossless_iff : ∀ (expression : Text) (c : Char) (more : Text) (escapeCharacter : Char),
    Lossless expression (c :: more) escapeCharacter <->
      more = [] ∨
        ∀ i, (c :: more) <+: (stripAsciiWhitespace expression).drop i ->
          0 < i ∧ (stripAsciiWhitespace expression)[i - 1]? = some escapeCharacter := by
  intro expression c more escapeCharacter
  have present : c :: more ≠ [] := List.cons_ne_nil c more
  by_cases blank : stripAsciiWhitespace expression = []
  · refine iff_of_true (lossless_of_nil present blank) (.inr fun i begins => ?_)
    rw [blank, List.drop_nil] at begins
    exact absurd (List.prefix_nil.mp begins) present
  have long := List.length_pos_of_ne_nil blank
  rcases @split_cuts _ _ escapeCharacter present blank with ⟨pieces, result, cuts⟩
  rw [Lossless, result, withoutLead]
  generalize stripAsciiWhitespace expression = stripped at cuts long
  constructor
  · rintro ⟨_, same, joined, -⟩
    cases Option.some.inj same
    by_cases single : more = []
    · exact .inl single
    · exact .inr (cuts.unseparated (Nat.succ_lt_succ (List.length_pos_of_ne_nil single)) long joined)
  · intro condition
    refine ⟨pieces, rfl, ?_⟩
    rcases condition with rfl | escaped
    · exact cuts.lossless
    · have absent : ¬ (c :: more) <+: stripped := fun leads =>
        Nat.lt_irrefl 0 (escaped 0 leads).1
      rw [if_neg absent] at cuts
      rw [if_neg absent]
      cases cuts with
      | last =>
        refine ⟨List.intercalate_singleton, fun i begins => ?_, trivial⟩
        rcases escaped i begins with ⟨positive, behind⟩
        rcases Nat.exists_eq_add_of_lt positive with ⟨i, rfl⟩
        exact behind
      | cut _ _ separates =>
        rcases escaped _ separates.1 with ⟨positive, behind⟩
        rcases separates.2 with atStart | differs
        · exact absurd atStart (Nat.ne_of_gt positive)
        · exact absurd behind differs

theorem not_lossless : ¬ Lossless (text "a..b") (text "..") '\\' := by
  rintro ⟨pieces, isSplit, joined, _⟩
  have split_eq : splitExprByDelimiterWithEscape (text "a..b") (text "..") '\\' =
      some [text "a", text ".b"] := by
    decide +kernel
  cases isSplit.symm.trans split_eq
  exact absurd joined (by decide +kernel)

end Delimited

end Ecclesia.PathUtil
