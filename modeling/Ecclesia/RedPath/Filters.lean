import Ecclesia.Library.Accumulate
import Ecclesia.Predicates.Comparison
import Ecclesia.Redfish.IndexHelper

namespace Ecclesia.RedPath

open Absl
open Predicates (Comparison)

/-!
# RedPaths with filters

A RedPath is a text whose parts name properties, each with a filter in brackets or without
one.  `GetRedPath` follows the parts from the service root, and calls a callback with the
objects that are left at the end.

The definitions follow `query.cc`.  What the code does wherever it relies on something that it
has not checked is a fault.
-/

/-- What the code runs into if it does not return. -/
inductive Fault where
  /-- A dereference of a null pointer to a `RedfishObject`. -/
  | nullObject
  /-- An access behind the last piece of a text that was split. -/
  | pastPieces
  /-- An exception of the JSON library. -/
  | typeError
deriving DecidableEq

/-- What is used of libraries for numbers. -/
structure NumberLibrary where
  Double : Type
  double : Comparison Double
  simpleAtod : Text -> Option Double
  /-- `nlohmann::json::dump` -/
  dump : Json -> Text

/-- A resource tree with the payloads of its objects. -/
structure Service (Object Iterable : Type) extends RedfishTree Object Iterable where
  getContentAsJson : Object -> Json

/-- Split behind some characters that belong to a separator. -/
def splitByText (separator : Text) : Nat -> Text -> Text -> List Text
  | _, piece, [] => [piece]
  | skipped + 1, piece, _ :: rest => splitByText separator skipped piece rest
  | 0, piece, c :: rest =>
    if separator.isPrefixOf (c :: rest) then
      piece :: splitByText separator (separator.length - 1) [] rest
    else splitByText separator 0 (piece ++ [c]) rest

/-- `absl::StrSplit` at every occurrence of a text that is not empty. -/
def strSplitByText (separator : Text) (t : Text) : List Text :=
  splitByText separator 0 [] t

/-- `absl::StrSplit` with `absl::ByAnyChar(".=")` -/
def splitNested (t : Text) : List Text :=
  t.splitOnP fun c => c == '.' || c == '='

/-- The `\s` of a regular expression. -/
def isRegexSpace (c : Char) : Bool :=
  c == ' ' || c == '\t' || c == '\n' || c == '\r' || c == '\x0c'

/-- The characters in brackets in `kRedPathRegex`. -/
def isFilterCharacter (c : Char) : Bool :=
  asciiIsAlnum c || isRegexSpace c || (text "=@#.()!></_$").contains c

/-- What is between the last brackets in `kRedPathRegex`, behind what is being read. -/
def lastFilter : Option Text -> Text -> Text -> Option Text
  | none, last, [] => some last
  | some _, _, [] => none
  | none, last, c :: rest => if c = '[' then lastFilter (some []) last rest else none
  | some content, last, c :: rest =>
    if c = ']' then
      if content.isEmpty then none else lastFilter none content rest
    else if isFilterCharacter c && content != ['*'] || c == '*' && content.isEmpty then
      lastFilter (some (content ++ [c])) last rest
    else none

/-- `kRedPathRegex`: the path and the content of the last filter, which is empty if there is
no filter. -/
def matchRedPath (elem : Text) : Option (Text × Text) :=
  let path := elem.takeWhile asciiIsAlnum
  if path.isEmpty then none
  else (lastFilter none [] (elem.dropWhile asciiIsAlnum)).map fun content => (path, content)

def isInequality (c : Char) : Bool :=
  c == '<' || c == '>' || c == '!' || c == '='

def isOperandCharacter (c : Char) : Bool :=
  asciiIsAlnum c || isRegexSpace c || c == '.' || c == '#' || c == '_'

/-- `kComparisonRedPathRegex`: the name, the symbol and the value. -/
def matchComparison (content : Text) : Option (Text × Text × Text) :=
  let name := content.takeWhile asciiIsAlpha
  let others := content.dropWhile asciiIsAlpha
  let symbol := others.takeWhile isInequality
  let value := others.dropWhile isInequality
  if name.isEmpty || symbol.isEmpty || !value.all isOperandCharacter then none
  else some (name, symbol, value)

example : [text "Memory", text "Memory[3]", text "Memory[*]", text "Memory[a=1][b]", text "Memory[]",
    text "z~023="].map matchRedPath =
      [some (text "Memory", []), some (text "Memory", text "3"), some (text "Memory", text "*"),
        some (text "Memory", text "b"), none, none] := by decide

def kRedPathSelectAllElements : Text := text "*"
def kRedPathSelectLastElements : Text := text "last()"

/-- The mutable `operator[]` with a name. -/
def atName (json : Json) (name : Text) : Except Fault Json :=
  match json with
  | .null => .ok .null
  | .object members => .ok ((members.lookup name).getD .null)
  | _ => .error .typeError

variable {Object Iterable : Type} (service : Service Object Iterable) (lib : NumberLibrary)

/-- `AsObject()->GetContentAsJson()` -/
def content (variant : RedfishVariant Object Iterable) : Except Fault Json :=
  match variant.object with
  | none => .error .nullObject
  | some object => .ok (service.getContentAsJson object)

/-- `ApplyFilter`: what is added to `temp`. -/
def applyFilter (condition : RedfishVariant Object Iterable -> Except Fault Bool)
    (temp : List (RedfishVariant Object Iterable)) (variant : RedfishVariant Object Iterable) :
    Except Fault (List (RedfishVariant Object Iterable)) :=
  match variant.iterable with
  | some iterable => (service.elements iterable).foldlM (keepIf condition) temp
  | none => keepIf condition temp variant

/-- The condition of `InequalityFilterPropertyForNumbers`. -/
def numberCondition (filterCondition : lib.Double -> Bool) (property : Text)
    (variant : RedfishVariant Object Iterable) : Except Fault Bool := do
  let json <- content service variant
  if !json.contains property then return false
  let json <- content service variant
  match lib.simpleAtod (lib.dump (<- atName json property)) with
  | some number => return filterCondition number
  | none => return false

def equalityCondition (filterCondition : Json -> Bool) (property inequalityString : Text)
    (variant : RedfishVariant Object Iterable) : Except Fault Bool := do
  let json <- content service variant
  if !json.contains property then return false
  let json <- content service variant
  let value <- atName json property
  return if inequalityString = text "!=" then !filterCondition value else filterCondition value

/-- The comparison in `FilterOnPropertyWithValue`. -/
def compareNumbers (inequalityString : Text) (value number : lib.Double) : Bool :=
  if inequalityString = text ">=" then lib.double.le value number
  else if inequalityString = text ">" then lib.double.lt value number
  else if inequalityString = text "<=" then lib.double.le number value
  else if inequalityString = text "<" then lib.double.lt number value
  else if inequalityString = text "!=" then !lib.double.eq number value
  else if inequalityString = text "=" then lib.double.eq number value
  else false

/-- The condition that `FilterOnPropertyWithValue` chooses for a value. -/
def valueCondition (inequalityString property value : Text) :
    RedfishVariant Object Iterable -> Except Fault Bool :=
  match lib.simpleAtod value with
  | some number =>
    numberCondition service lib (compareNumbers lib inequalityString number) property
  | none =>
    if value = text "false" ∨ value = text "true" then
      equalityCondition service (fun json => json.equalsBoolean (value != text "false")) property
        inequalityString
    else if value = text "null" then
      equalityCondition service Json.isEmpty property inequalityString
    else equalityCondition service (fun json => json.equalsText value) property inequalityString

def filterOnPropertyWithValue (inequalityString subpathContent : Text)
    (temp : List (RedfishVariant Object Iterable)) (variant : RedfishVariant Object Iterable) :
    Except Fault (List (RedfishVariant Object Iterable)) :=
  match strSplitByText inequalityString subpathContent with
  | property :: value :: _ =>
    applyFilter service (valueCondition service lib inequalityString property value) temp variant
  | _ => .error .pastPieces

/-- The loop in the condition of `FilterOnPropertyContainingChild`, from a piece on. -/
def nestedLoop (back : Text) : List Text -> Json -> Except Fault Bool
  | [], _ => .ok true
  | elem :: rest, jsonRes =>
    let search : Except Fault Bool :=
      if !jsonRes.contains elem && !jsonRes.equalsText elem then .ok false
      else if elem = back then nestedLoop back rest jsonRes
      else do
        let child <- atName jsonRes elem
        nestedLoop back rest child
    if elem = back then
      match jsonRes with
      | .null => .ok (elem == text "null")
      | .integer _ | .unsigned _ | .float _ => .ok (lib.dump jsonRes == elem)
      | .boolean value => .ok ((elem != text "false") == value)
      | _ => search
    else search

def nestedCondition (splitSubpath : List Text) (variant : RedfishVariant Object Iterable) :
    Except Fault Bool := do
  let json <- content service variant
  nestedLoop lib (splitSubpath.getLastD []) splitSubpath json

def filterOnPropertyContainingChild (subpathContent : Text)
    (temp : List (RedfishVariant Object Iterable)) (variant : RedfishVariant Object Iterable) :
    Except Fault (List (RedfishVariant Object Iterable)) :=
  applyFilter service (nestedCondition service lib (splitNested subpathContent)) temp variant

/-- The condition for a property without a value. -/
def presenceCondition (property : Text) (variant : RedfishVariant Object Iterable) :
    Except Fault Bool := do
  let json <- content service variant
  return json.contains property

/-- The index of the last one of some members, which is the greatest one if there are none. -/
def lastIndex (size : Nat) : Nat :=
  (size + (2 ^ 64 - 1)) % 2 ^ 64

/-- One turn of the loop over the variants that have passed. -/
def filterVariant (path subpathContent : Text) (temp : List (RedfishVariant Object Iterable))
    (passed : RedfishVariant Object Iterable) :
    Except Fault (List (RedfishVariant Object Iterable)) :=
  let variant := service.indexName passed path
  if subpathContent.isEmpty then .ok (temp ++ [variant])
  else if subpathContent = kRedPathSelectAllElements then
    applyFilter service (fun _ => .ok true) temp variant
  else if subpathContent = kRedPathSelectLastElements then
    match variant.iterable with
    | some members =>
      .ok (temp ++ [service.indexPosition variant (lastIndex (service.size members))])
    | none => .ok temp
  else
    match simpleAtoi64 subpathContent with
    | some num => .ok (temp ++ [service.indexPosition variant num])
    | none =>
      match matchComparison subpathContent with
      | some (_, symbol, _) =>
        filterOnPropertyWithValue service lib symbol subpathContent temp variant
      | none =>
        if strContains subpathContent (text ".") && !strContains subpathContent (text "@odata.")
        then filterOnPropertyContainingChild service lib subpathContent temp variant
        else if !strContains subpathContent (text "=") then
          applyFilter service (presenceCondition service subpathContent) temp variant
        else .ok temp

/-- The loop over the parts of a RedPath.  Nothing has passed if a part is not well formed. -/
def followElements : List Text -> List (RedfishVariant Object Iterable) ->
    Except Fault (List (RedfishVariant Object Iterable))
  | [], passed => .ok passed
  | elem :: rest, passed =>
    if elem.isEmpty then followElements rest passed
    else
      match matchRedPath elem with
      | none => .ok []
      | some (path, subpathContent) =>
        if passed.isEmpty then .ok []
        else do
          let temp <- passed.foldlM (filterVariant service lib path subpathContent) []
          followElements rest temp

/-- One turn of the last loop, which passes over what is no object. -/
def callWithObject {State : Type}
    (resultCallback : Object -> State -> RedfishIterReturnValue × State)
    (variant : RedfishVariant Object Iterable) (state : State) : RedfishIterReturnValue × State :=
  match variant.object with
  | none => (.proceed, state)
  | some object => resultCallback object state

/-- `GetRedPath`.  What the callback does is a change of a state. -/
def getRedPath {State : Type} (redpath : Text)
    (resultCallback : Object -> State -> RedfishIterReturnValue × State) (state : State) :
    Except Fault State :=
  if redpath.isEmpty then .ok state
  else do
    let root := service.getRoot {} .redfish
    let passed <- followElements service lib (strSplit '/' redpath) [root]
    return (visitUntil (callWithObject resultCallback) passed state).2

end Ecclesia.RedPath
