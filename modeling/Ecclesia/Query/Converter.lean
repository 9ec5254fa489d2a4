import Ecclesia.Normalizer.Default
import Ecclesia.Query.Location

namespace Ecclesia.Query

open Absl

/-!
# Query values and JSON

Query results are converted to JSON and back.  The definitions follow `converter.cc`.

The parser and the printer of times belong to another library and are parameters.
-/

def kLocalDevpathTag : Text := text "_local_devpath_"
def kMachineDevpathTag : Text := text "_machine_devpath_"
def kEmbeddedLocationContextTag : Text := text "_embedded_location_context_"

/-- The functions of the time library that the converter calls. -/
structure TimeLibrary where
  /-- `absl::ParseTime`, of a format and a text -/
  parseTime : Text -> Text -> Option Normalizer.Time
  /-- `absl::FormatTime` -/
  formatTime : Normalizer.Time -> Text

def validate (seconds nanos : Int) : Status :=
  if seconds < -62135596800 ∨ 253402300799 < seconds then
    .invalidArgument (text "seconds=" ++ strCatInt seconds)
  else if nanos < 0 ∨ 999999999 < nanos then
    .invalidArgument (text "nanos=" ++ strCatInt nanos)
  else .okStatus

def decodeGoogleApiProto (seconds nanos : Int) : StatusOr Normalizer.Time :=
  let status := validate seconds nanos
  if status.isOk then .ok (.finite (seconds * 4000000000 + nanos * 4)) else .error status

/-- The seconds and the nanoseconds of a time; an infinite one has the last or the first second. -/
def splitTime : Normalizer.Time -> Int × Int
  | .infinitePast => (-2 ^ 63, 0)
  | .finite ticks => (ticks / 4000000000, ticks % 4000000000 / 4)
  | .infiniteFuture => (2 ^ 63 - 1, 0)

def encodeGoogleApiProto (time : Normalizer.Time) : StatusOr (Int × Int) :=
  let proto := splitTime time
  let status := validate proto.1 proto.2
  if status.isOk then .ok proto else .error status

def oneOf (characters : String) (c : Char) : Bool :=
  characters.toList.contains c

/-- The years of `kRedfishDatetimeRegex` that have a 29th of February. -/
def isLeapYear (y₁ y₂ y₃ y₄ : Char) : Bool :=
  (oneOf "123456789" y₁ && asciiIsDigit y₂ &&
      (y₃ == '0' && oneOf "48" y₄ || oneOf "2468" y₃ && oneOf "048" y₄ ||
        oneOf "13579" y₃ && oneOf "26" y₄)) ||
    ((oneOf "2468" y₁ && oneOf "048" y₂ || oneOf "13579" y₁ && oneOf "26" y₂) &&
      y₃ == '0' && y₄ == '0')

/-- The days of `kRedfishDatetimeRegex` that every year has. -/
def isCommonDay (m₁ m₂ d₁ d₂ : Char) : Bool :=
  ((m₁ == '0' && oneOf "123456789" m₂ || m₁ == '1' && oneOf "012" m₂) &&
      (d₁ == '0' && oneOf "123456789" d₂ || d₁ == '1' && asciiIsDigit d₂ ||
        d₁ == '2' && oneOf "012345678" d₂)) ||
    ((m₁ == '0' && oneOf "13456789" m₂ || m₁ == '1' && oneOf "012" m₂) &&
      (d₁ == '2' && d₂ == '9' || d₁ == '3' && d₂ == '0')) ||
    ((m₁ == '0' && oneOf "13578" m₂ || m₁ == '1' && oneOf "02" m₂) && d₁ == '3' && d₂ == '1')

def isRedfishDate (y₁ y₂ y₃ y₄ m₁ m₂ d₁ d₂ : Char) : Bool :=
  (oneOf "123456789" y₁ && asciiIsDigit y₂ && asciiIsDigit y₃ && asciiIsDigit y₄ &&
      isCommonDay m₁ m₂ d₁ d₂) ||
    (isLeapYear y₁ y₂ y₃ y₄ && m₁ == '0' && m₂ == '2' && d₁ == '2' && d₂ == '9')

/-- The offset at the end of `kRedfishDatetimeRegex`. -/
def isRedfishOffset : Text -> Bool
  | [] | ['Z'] => true
  | [sign, h₁, h₂, ':', n₁, n₂] =>
    oneOf "+-" sign && oneOf "01" h₁ && asciiIsDigit h₂ && oneOf "012345" n₁ && asciiIsDigit n₂
  | _ => false

def isRedfishFraction : Text -> Bool
  | '.' :: rest =>
    let (digits, offset) := rest.span asciiIsDigit
    1 <= digits.length && digits.length <= 9 && isRedfishOffset offset
  | rest => isRedfishOffset rest

/-- `RE2::FullMatch` with `kRedfishDatetimeRegex`. -/
def isRedfishDatetime : Text -> Bool
  | y₁ :: y₂ :: y₃ :: y₄ :: '-' :: m₁ :: m₂ :: '-' :: d₁ :: d₂ :: 'T' :: h₁ :: h₂ :: ':' :: n₁ ::
      n₂ :: ':' :: s₁ :: s₂ :: rest =>
      isRedfishDate y₁ y₂ y₃ y₄ m₁ m₂ d₁ d₂ &&
        (oneOf "01" h₁ && asciiIsDigit h₂ || h₁ == '2' && oneOf "0123" h₂) &&
        oneOf "012345" n₁ && asciiIsDigit n₂ && oneOf "012345" s₁ && asciiIsDigit s₂ &&
        isRedfishFraction rest
  | _ => false

variable (library : TimeLibrary)

def timestampStrToTimestamp (value : Text) : StatusOr (Int × Int) :=
  if isRedfishDatetime value then
    match library.parseTime (text "%Y-%m-%dT%H:%M:%E6S%Ez") value with
    | some time => encodeGoogleApiProto time
    | none =>
      match library.parseTime (text "%Y-%m-%dT%H:%M:%E6S") value with
      | some time => encodeGoogleApiProto time
      | none => .error (.internal (text "Unable to convert to timestamp value"))
  else .error (.internal (text "Unable to convert to timestamp value"))

/-- The members for a field of an identifier, which an empty field does not get. -/
def insertTag (tag : Text) (field : Option Text) (members : List (Text × Json)) :
    List (Text × Json) :=
  match field with
  | some (c :: rest) => Json.insertMember tag (.string (c :: rest)) members
  | _ => members

def identifierValueToJson (value : Identifier) : Json :=
  .object (insertTag kEmbeddedLocationContextTag value.embeddedLocationContext
    (insertTag kMachineDevpathTag value.machineDevpath
      (insertTag kLocalDevpathTag value.localDevpath [])))

mutual

def valueToJson : QueryValue -> Json
  | .int value => .integer value
  | .double value => .float value
  | .string value => .string value
  | .bool value => .boolean value
  | .timestamp seconds nanos =>
    match decodeGoogleApiProto seconds nanos with
    | .ok time => .string (library.formatTime time)
    | .error _ => .null
  | .subquery fields => .object (fieldsToJson fields [])
  | .list values => .array (listValueToJson values)
  | .identifier identifier => identifierValueToJson identifier
  | .rawString value => .string value
  | .rawBytes value => .string (base64Escape value)
  | .rawUnset => .string (base64Escape [])
  | .null => .null
  | .notSet => .object []

def fieldsToJson : QueryResultData -> List (Text × Json) -> List (Text × Json)
  | [], members => members
  | (key, value) :: rest, members =>
    fieldsToJson rest (Json.insertMember key (valueToJson value) members)

def listValueToJson : List QueryValue -> List Json
  | [] => []
  | value :: rest => valueToJson value :: listValueToJson rest

end

/-- The loop of `JsonToIdentifierValue`. -/
def identifierFromMembers : List (Text × Json) -> Identifier -> Evaluation Identifier
  | [], identifier => .ok identifier
  | (key, value) :: rest, identifier => do
      let changed <-
        if key = kLocalDevpathTag then do
          let devpath <- value.getString
          .ok { identifier with localDevpath := some devpath }
        else if key = kMachineDevpathTag then do
          let devpath <- value.getString
          .ok { identifier with machineDevpath := some devpath }
        else if key = kEmbeddedLocationContextTag then do
          let locationContext <- value.getString
          .ok { identifier with embeddedLocationContext := some locationContext }
        else .ok identifier
      identifierFromMembers rest changed

def jsonToIdentifierValue (members : List (Text × Json)) : Evaluation (Option Identifier) := do
  let identifier <- identifierFromMembers members .empty
  if identifier.localDevpath.isSome || identifier.machineDevpath.isSome ||
      identifier.embeddedLocationContext.isSome then .ok (some identifier)
  else .ok none

mutual

def jsonToQueryValue : Json -> Evaluation QueryValue
  | .null => .ok .null
  | .integer value => .ok (.int value)
  | .unsigned value => .ok (.int (Int.bmod value (2 ^ 64)))
  | .float value => .ok (.double value)
  | .string value =>
    match timestampStrToTimestamp library value with
    | .ok (seconds, nanos) => .ok (.timestamp seconds nanos)
    | .error _ => .ok (.string value)
  | .boolean value => .ok (.bool value)
  | .object members => do
      let identifier <- jsonToIdentifierValue members
      match identifier with
      | some identifier => .ok (.identifier identifier)
      | none => do
          let fields <- jsonToQueryResultData members []
          .ok (.subquery fields)
  | .array elements => do
      let values <- jsonToQueryListValue elements
      .ok (.list values)
  | .discarded => .ok .notSet

/-- The loop of `JsonToQueryResultData`. -/
def jsonToQueryResultData : List (Text × Json) -> QueryResultData -> Evaluation QueryResultData
  | [], fields => .ok fields
  | (key, json) :: rest, fields => do
      let value <- jsonToQueryValue json
      jsonToQueryResultData rest (setField key value fields)

def jsonToQueryListValue : List Json -> Evaluation (List QueryValue)
  | [] => .ok []
  | json :: rest => do
      let value <- jsonToQueryValue json
      let values <- jsonToQueryListValue rest
      .ok (value :: values)

end

end Ecclesia.Query
