import Ecclesia.Absl.Status

namespace Ecclesia.Absl

/-!
# String functions of the base library

These follow the documented behaviour of the functions the program calls.
Only what the modelled code uses is present.
-/

/-- `absl::ascii_isspace`: blank, tab, line feed, vertical tab, form feed and
carriage return. -/
def asciiIsSpace (c : Char) : Bool :=
  c == ' ' || (9 <= c.toNat && c.toNat <= 13)

/-- A condition that no character of a text fulfils. -/
lemma forall_of_none {t : Text} {holds : Char -> Bool} (none : t.any holds = false) :
    ∀ c ∈ t, holds c = false :=
  fun c member => Bool.eq_false_iff.mpr (List.any_eq_false.mp none c member)

def asciiIsDigit (c : Char) : Bool :=
  '0' <= c && c <= '9'

def asciiIsAlpha (c : Char) : Bool := ('a' <= c && c <= 'z') || ('A' <= c && c <= 'Z')

def asciiIsAlnum (c : Char) : Bool :=
  asciiIsAlpha c || asciiIsDigit c

def stripLeadingAsciiWhitespace (t : Text) : Text :=
  t.dropWhile asciiIsSpace

def stripTrailingAsciiWhitespace (t : Text) : Text :=
  (t.reverse.dropWhile asciiIsSpace).reverse

def stripAsciiWhitespace (t : Text) : Text :=
  stripTrailingAsciiWhitespace (stripLeadingAsciiWhitespace t)

def startsWith (t start : Text) : Bool :=
  start.isPrefixOf t

def endsWith (t final : Text) : Bool :=
  final.isSuffixOf t

def strContains (t part : Text) : Bool :=
  t.tails.any fun rest => part.isPrefixOf rest

/-- `absl::StrSplit` at every occurrence of one character, with at least one piece. -/
def strSplit (separator : Char) (t : Text) : List Text :=
  t.splitOn separator

/-- The longest of the patterns that a text starts with. -/
def longestMatch (replacements : List (Text × Text)) (t : Text) : Option (Text × Text) :=
  replacements.foldl (fun best candidate =>
      if candidate.1.isPrefixOf t && best.all (fun found => found.1.length < candidate.1.length)
      then some candidate else best) none

/-- Replace from here on, after some characters that belong to a replaced pattern. -/
def strReplaceFrom (replacements : List (Text × Text)) : Nat -> Text -> Text
  | _, [] => []
  | skipped + 1, _ :: rest => strReplaceFrom replacements skipped rest
  | 0, c :: rest =>
    match longestMatch replacements (c :: rest) with
    | none => c :: strReplaceFrom replacements 0 rest
    | some (pattern, replacement) =>
      replacement ++ strReplaceFrom replacements (pattern.length - 1) rest

/-- `absl::StrReplaceAll` with non-empty patterns: the leftmost match, and the longest one there. -/
def strReplaceAll (t : Text) (replacements : List (Text × Text)) : Text :=
  strReplaceFrom replacements 0 t

def strJoin (parts : List Text) (separator : Text) : Text :=
  separator.intercalate parts

/-- Two parts with the separator between them count as one part. -/
lemma strJoin_append (first second : Text) (rest : List Text) (separator : Text) :
    strJoin ((first ++ separator ++ second) :: rest) separator =
      strJoin (first :: second :: rest) separator := by
  cases rest with
  | nil => simp [strJoin]
  | cons third rest => simp [strJoin]

/-- `absl::StrCat` of an unsigned number. -/
def strCatNat (n : Nat) : Text :=
  Nat.toDigits 10 n

lemma strCatNat_injective {first second : Nat} (same : strCatNat first = strCatNat second) :
    first = second := by
  have values := congrArg (fun digits => Nat.ofDigitChars 10 digits 0) same
  simpa only [strCatNat, Nat.ofDigitChars_ten_toDigits] using values

/-- `absl::StrCat` of a signed number. -/
def strCatInt : Int -> Text
  | .ofNat value => strCatNat value
  | .negSucc value => '-' :: strCatNat (value + 1)

/-- The alphabet of `absl::Base64Escape`. -/
def base64Alphabet : Text :=
  text "ABCDEFGHIJKLMNOPQRSTUVWXYZabcdefghijklmnopqrstuvwxyz0123456789+/"

/-- The character for six bits. -/
def base64Digit (bits : Nat) : Char :=
  base64Alphabet.getD (bits % 64) '='

/-- `absl::Base64Escape`, with padding. -/
def base64Escape : Text -> Text
  | [] => []
  | [a] =>
    let bits := a.toNat * 16
    [base64Digit (bits / 64), base64Digit bits, '=', '=']
  | [a, b] =>
    let bits := (a.toNat * 256 + b.toNat) * 4
    [base64Digit (bits / 4096), base64Digit (bits / 64), base64Digit bits, '=']
  | a :: b :: c :: rest =>
    let bits := (a.toNat * 256 + b.toNat) * 256 + c.toNat
    base64Digit (bits / 262144) :: base64Digit (bits / 4096) :: base64Digit (bits / 64) ::
      base64Digit bits :: base64Escape rest

def digitValue (c : Char) : Nat :=
  c.toNat - '0'.toNat

/-- The value of a non-empty run of decimal digits. -/
def parseDigits (digits : Text) : Option Nat :=
  if digits.isEmpty || !digits.all asciiIsDigit then none
  else some (digits.foldl (fun value c => 10 * value + digitValue c) 0)

/-- `absl::SimpleAtoi` at an unsigned 64-bit target, which accepts white space around and a plus
sign. -/
def simpleAtoi64 (t : Text) : Option Nat :=
  let digits :=
    match stripAsciiWhitespace t with
    | '+' :: rest => rest
    | rest => rest
  match parseDigits digits with
  | some value => if value < 2 ^ 64 then some value else none
  | none => none

/-- `absl::SimpleAtoi` at a signed 32-bit target. -/
def simpleAtoi32 (t : Text) : Option Int :=
  match stripAsciiWhitespace t with
  | '-' :: rest =>
    match parseDigits rest with
    | some value => if value <= 2 ^ 31 then some (-value) else none
    | none => none
  | '+' :: rest => bounded rest
  | rest => bounded rest
where
  bounded (digits : Text) : Option Int :=
    match parseDigits digits with
    | some value => if value < 2 ^ 31 then some value else none
    | none => none

end Ecclesia.Absl
