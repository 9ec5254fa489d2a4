import Ecclesia.Json.PathUtil

namespace Ecclesia.Predicates

open Absl PathUtil

/-!
# Single predicate expressions

A predicate expression compares one property of a resource with a literal, or
asks whether a property exists.  This module follows the file-local helpers
of `predicates.cc` and `FuzzyStringComparison`.

Conversions of decimal texts and of time stamps belong to libraries outside
the repository.  They are fields of `NumericLibrary`; no property of them is
assumed here, so every result below holds for all of them.
-/

/-- The comparisons a type offers to `TestLogicalOp`; floats are not totally ordered. -/
structure Comparison (α : Type) where
  lt : α -> α -> Bool
  le : α -> α -> Bool
  eq : α -> α -> Bool

/-- The number and time functions that predicates call. -/
structure NumericLibrary where
  Double : Type
  double : Comparison Double
  /-- `absl::SimpleAtod` -/
  simpleAtod : Text -> Option Double
  /-- `get<double>()` at the three kinds of JSON numbers -/
  ofInteger : Int -> Double
  ofUnsigned : Nat -> Double
  ofFloat : Rat -> Double
  /-- `absl::from_chars`: the number and the unread rest -/
  fromChars : Text -> Option (Double × Text)
  /-- `static_cast<int>` of a difference -/
  truncatedDifference : Double -> Double -> Int
  Time : Type
  time : Comparison Time
  /-- `absl::ParseTime` with a format -/
  parseTime : Text -> Text -> Option Time
  /-- texts used in messages only -/
  dump : Json -> Text
  formatDouble : Double -> Text

def relationsOperators : List Text :=
  [text "<", text ">", text "!=", text ">=", text "<=", text "=", text "~>", text "<~",
    text "~>=", text "<~="]

def fuzzyStringComparisonOperators : List Text := [text "~>", text "<~", text "~>=", text "<~="]

def redfishDatetimePlusOffset : Text := text "%Y-%m-%dT%H:%M:%E6S%Ez"
def redfishDatetimeNoOffset : Text := text "%Y-%m-%dT%H:%M:%E6S"
def redfishDatetimeZeroOffset : Text := text "%Y-%m-%dT%H:%M:%E6SZ"

def applyStringComparisonFilter (filterCondition : Bool) (inequality : Text) : Bool :=
  if inequality = text "!=" then !filterCondition else filterCondition

def testLogicalOp {α : Type} (compare : Comparison α) (op : Text) (lhs rhs : α) : Bool :=
  if op = text ">=" then compare.le rhs lhs
  else if op = text ">" then compare.lt rhs lhs
  else if op = text "<=" then compare.le lhs rhs
  else if op = text "<" then compare.lt lhs rhs
  else if op = text "!=" then !compare.eq lhs rhs
  else compare.eq lhs rhs

/-- `FuzzyStringComparison`. Both sides are read in step, and runs of digits are compared as
numbers. Every turn shortens the left side, or enters number mode without reading. -/
def fuzzyLoop (lib : NumericLibrary) (wholeLhs wholeRhs : Text) :
    Nat -> Bool -> Text -> Text -> Evaluation Int
  | _, _, [], [] => .ok 0
  | _, _, _ :: _, [] => .ok (-1)
  | _, _, [], _ :: _ => .ok 1
  | 0, _, _ :: _, _ :: _ => .internal (text "unreachable")
  | fuel + 1, true, l :: lhs, r :: rhs =>
    if asciiIsDigit l && asciiIsDigit r then
      fuzzyLoop lib wholeLhs wholeRhs fuel false (l :: lhs) (r :: rhs)
    else if asciiIsDigit l then .ok (-1)
    else if asciiIsDigit r then .ok 1
    else if l ≠ r then .ok ((l.toNat : Int) - r.toNat)
    else fuzzyLoop lib wholeLhs wholeRhs fuel true lhs rhs
  | fuel + 1, false, l :: lhs, r :: rhs =>
    match lib.fromChars (l :: lhs) with
    | none => .internal (text "Error while trying to parse number from string: " ++ wholeLhs)
    | some (leftNumber, leftRest) =>
      match lib.fromChars (r :: rhs) with
      | none => .internal (text "Error while trying to parse number from string: " ++ wholeRhs)
      | some (rightNumber, rightRest) =>
        let diff := lib.truncatedDifference leftNumber rightNumber
        if diff ≠ 0 then .ok diff
        else fuzzyLoop lib wholeLhs wholeRhs fuel true leftRest rightRest

variable (lib : NumericLibrary)

def fuzzyStringComparison (lhs rhs : Text) : Evaluation Int :=
  fuzzyLoop lib lhs rhs (2 * lhs.length + 1) true lhs rhs

def applyFuzzyStringComparisonFilter (op lhs rhs : Text) :
    Evaluation Bool := do
  let comparison <- fuzzyStringComparison lib lhs rhs
  return if op = text "~>" then decide (0 < comparison)
    else if op = text "~>=" then decide (0 <= comparison)
    else if op = text "<~" then decide (comparison < 0)
    else if op = text "<~=" then decide (comparison <= 0)
    else false

def applyNumberComparisonFilter (op : Text) (obj : Json) (rhs : lib.Double) : Evaluation Bool := do
  let number <- match obj with
    | .integer value => .ok (lib.ofInteger value)
    | .unsigned value => .ok (lib.ofUnsigned value)
    | .float value => .ok (lib.ofFloat value)
    | other => do
        let stored <- other.getString
        match lib.simpleAtod stored with
        | some value => .ok value
        | none => .invalidArgument (text "Invalid number comparison. Json Object: " ++
            lib.dump other ++ text "TestValue: " ++ lib.formatDouble rhs)
  return testLogicalOp lib.double op number rhs

def applyDateTimeComparisonFilter (op lhsTime testValue : Text) :
    Evaluation Bool :=
  match (lib.parseTime redfishDatetimeNoOffset testValue).orElse
      fun _ => lib.parseTime redfishDatetimePlusOffset testValue with
  | none => .invalidArgument (text "Invalid datetime string in predicate: " ++ testValue)
  | some rhs =>
    match (lib.parseTime redfishDatetimeZeroOffset lhsTime).orElse
        fun _ => lib.parseTime redfishDatetimePlusOffset lhsTime with
    | none => .internal (text "Invalid datetime string in redfish property: " ++ lhsTime)
    | some lhs => .ok (testLogicalOp lib.time op lhs rhs)

/-- Read a text against a shape in which `d` stands for one digit, and return
what follows. -/
def dropShape : Text -> Text -> Option Text
  | [], rest => some rest
  | _ :: _, [] => none
  | expected :: shape, c :: rest =>
    if (if expected = 'd' then asciiIsDigit c else c == expected) then dropShape shape rest
    else none

/-- The optional zone that ends a Redfish time stamp. -/
def isZone (t : Text) : Bool :=
  match t with
  | [] => true
  | ['Z'] => true
  | sign :: rest => (sign == '+' || sign == '-') && dropShape (text "dd:dd") rest == some []

/-- `IsDateTimeString`: the pattern of a Redfish time stamp. -/
def isDateTimeString (t : Text) : Bool :=
  match dropShape (text "dddd-dd-ddTdd:dd:dd") t with
  | none => false
  | some ('.' :: fraction) =>
    match fraction.span asciiIsDigit with
    | ([], _) => false
    | (_ :: _, zone) => isZone zone
  | some zone => isZone zone

def isNodeNameStart (c : Char) : Bool :=
  asciiIsAlpha c || c == '#' || c == '@'

def isNodeNameCharacter (c : Char) : Bool :=
  asciiIsAlnum c || c == '.' || c == '\\'

def isOperatorCharacter (c : Char) : Bool :=
  c == '!' || c == '<' || c == '>' || c == '=' || c == '~'

def isTestValueCharacter (c : Char) : Bool :=
  asciiIsAlnum c || c == '.' || c == '_' || c == '+' || c == '-' || c == ':' || c == '#' ||
    c == '\\' || c == ' ' || c == '/' || c == '\''

/-- Match the pattern of a relational expression, whose groups its operator determines. -/
def matchRelational (predicate : Text) : Option (Text × Text × Text) :=
  match predicate with
  | [] => none
  | first :: rest =>
    if isNodeNameStart first then
      let (name, afterName) := rest.span isNodeNameCharacter
      let (op, testValue) := afterName.span isOperatorCharacter
      if op ∈ relationsOperators ∧ testValue ≠ [] ∧ testValue.all isTestValueCharacter then
        some (first :: name, op, testValue)
      else none
    else none

/-- Remove a pair of outer single quotes. -/
def stripOuterQuotes (t : Text) : Text :=
  if 2 <= t.length ∧ t.head? = some '\'' ∧ t.getLast? = some '\'' then t.tail.dropLast else t

def predicateFilterByNodeComparison (jsonObject : Json) (predicate : Text) : Evaluation Bool :=
  match matchRelational predicate with
  | none => .invalidArgument (text "Invalid node comparison: " ++ predicate)
  | some (nodeName, op, testValue) =>
    match resolveRedPathNodeToJson jsonObject nodeName with
    | .error (.exception what) => .error (.exception what)
    | .error (.status _) => .ok false
    | .ok obj =>
      if isDateTimeString testValue then
        match obj.string? with
        | some stored => applyDateTimeComparisonFilter lib op stored testValue
        | none => .ok false
      else if op ∈ fuzzyStringComparisonOperators then
        match obj.string? with
        | some stored => applyFuzzyStringComparisonFilter lib op stored testValue
        | none => .ok false
      else match lib.simpleAtod testValue with
        | some value => applyNumberComparisonFilter lib op obj value
        | none =>
          if testValue = text "false" then
            .ok (applyStringComparisonFilter (obj.equalsBoolean false) op)
          else if testValue = text "true" then
            .ok (applyStringComparisonFilter (obj.equalsBoolean true) op)
          else if testValue = text "null" then
            .ok (applyStringComparisonFilter obj.isNull op)
          else
            let literal := stripOuterQuotes (testValue.filter fun c => c != '\\')
            .ok (applyStringComparisonFilter (obj.equalsText literal) op)

/-- `PredicateFilterByNodeName`: whether the nested property exists. -/
def predicateFilterByNodeName (jsonObject : Json) (predicate : Text) : Bool :=
  match splitNodeNameForNestedNodes predicate with
  | [] => false
  | first :: rest =>
    ((first :: rest).foldlM (fun leaf name => Json.find leaf name) jsonObject).isSome

/-- A library of integers in decimal notation, without time stamps. -/
def integerLibrary : NumericLibrary where
  Double := Int
  double := ⟨fun l r => decide (l < r), fun l r => decide (l <= r), fun l r => decide (l = r)⟩
  simpleAtod := simpleAtoi32
  ofInteger := id
  ofUnsigned := fun n => n
  ofFloat := fun x => x.num / x.den
  fromChars := fun t =>
    (parseDigits (t.takeWhile asciiIsDigit)).map fun n => ((n : Int), t.dropWhile asciiIsDigit)
  truncatedDifference := fun l r => l - r
  Time := Text
  time := ⟨fun _ _ => false, fun _ _ => false, fun l r => l == r⟩
  parseTime := fun _ _ => none
  dump := fun _ => []
  formatDouble := fun _ => []

end Ecclesia.Predicates
