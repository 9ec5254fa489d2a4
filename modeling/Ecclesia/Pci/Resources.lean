import Ecclesia.Predicates.Filter
import Ecclesia.Types.FixedRangeInt

namespace Ecclesia.Pci

open Absl List
open Predicates (hexDigit?)

/-!
# Base addresses from sysfs

The resource file of a device has one line for each of its address ranges, of which the first six are
those of the base address registers.  There is a check of the number of lines, and the line of the
requested register is accessed after it.

The definitions follow `sysfs.cc` and `pci.h`.
-/

/-- `PciResources::BarNum` -/
abbrev BarNum : Type := FixedRangeInteger 0 5

/-- `BarNum::kMaxValue` -/
def kMaxBarNum : Nat := 5

inductive BarType where
  | mem
  | io
deriving DecidableEq

/-- `PciResources::BarInfo` -/
structure BarInfo where
  type : BarType
  address : BitVec 64
deriving DecidableEq

/-- An access to an element of a vector that has a value if the element is there. -/
inductive Access (Value : Type) where
  | outOfRange
  | value (value : Value)

/-- `[[:xdigit:]]` -/
def isXDigit (c : Char) : Bool :=
  (hexDigit? c).isSome

/-- `RE2::Hex` of sixteen digits. -/
def hexValue (digits : Text) : BitVec 64 :=
  .ofNat 64 (digits.foldl (fun value c => 16 * value + (hexDigit? c).getD 0) 0)

/-- `0x[[:xdigit:]]{16}` at the start of a text: the number, and the text behind it. -/
def matchHex : Text -> Option (BitVec 64 × Text)
  | '0' :: 'x' :: rest =>
    if (rest.take 16).length = 16 ∧ (rest.take 16).all isXDigit = true then
      some (hexValue (rest.take 16), rest.drop 16)
    else none
  | _ => none

def matchBlank : Text -> Option Text
  | ' ' :: rest => some rest
  | _ => none

/-- `kResourceLineRegex`, matched with a whole line. -/
def matchResourceLine (line : Text) : Option (BitVec 64 × BitVec 64 × BitVec 64) :=
  match matchHex line with
  | none => none
  | some (base, afterBase) =>
    match (matchBlank afterBase).bind matchHex with
    | none => none
    | some (limit, afterLimit) =>
      match (matchBlank afterLimit).bind matchHex with
      | none => none
      | some (flags, rest) => if rest = [] then some (base, limit, flags) else none

/-- `absl::StripSuffix` -/
def stripSuffix (t suffix : Text) : Text :=
  (t.dropSuffix? suffix).getD t

def kIoResourceFlag : BitVec 64 := 0x100

def resourceLines (contents : Text) : List Text :=
  strSplit '\n' (stripSuffix contents (text "\n"))

/-- What a resource line tells. -/
def barInfo (base flags : BitVec 64) : BarInfo :=
  ⟨if flags &&& kIoResourceFlag ≠ 0 then .io else .mem, base⟩

/-- `SysfsPciResources::GetBaseAddressImpl` for the file at a path. -/
def getBaseAddressImpl (path : Text) (contents : StatusOr Text) (barId : BarNum) :
    Access (StatusOr BarInfo) :=
  match contents with
  | .error status => .value (.error status)
  | .ok contents =>
    let lines := resourceLines contents
    if lines.length < kMaxBarNum then
      .value (.error (.internal (text "No bar information found in " ++ path)))
    else
      match lines[barId.value.toNat]? with
      | none => .outOfRange
      | some line =>
        match matchResourceLine line with
        | none => .value (.error (.internal (text "Error reading BAR information.")))
        | some (base, _, flags) => .value (.ok (barInfo base flags))

/-- A number with sixteen hexadecimal digits. -/
def IsHexNumber (t : Text) (value : BitVec 64) : Prop :=
  ∃ digits, t = '0' :: 'x' :: digits ∧ digits.length = 16 ∧ digits.all isXDigit = true ∧
    value = hexValue digits

/-- Three of them, with blanks between them. -/
def IsResourceLine (line : Text) (base limit flags : BitVec 64) : Prop :=
  ∃ first second third, line = first ++ ' ' :: (second ++ ' ' :: third) ∧
    IsHexNumber first base ∧ IsHexNumber second limit ∧ IsHexNumber third flags

lemma matchHex_iff {t rest : Text} {value : BitVec 64} :
    matchHex t = some (value, rest) <->
      ∃ number, t = number ++ rest ∧ IsHexNumber number value := by
  constructor
  · intro matched
    unfold matchHex at matched
    split at matched
    · rename_i digits
      split at matched
      · rename_i fits
        cases matched
        refine ⟨'0' :: 'x' :: digits.take 16, ?_, _, rfl, fits.1, fits.2, rfl⟩
        rw [cons_append, cons_append, take_append_drop]
      · cases matched
    · cases matched
  · rintro ⟨number, rfl, digits, rfl, length, all, rfl⟩
    have taken : (digits ++ rest).take 16 = digits := by
      rw [<- length]
      exact take_left
    have dropped : (digits ++ rest).drop 16 = rest := by
      rw [<- length]
      exact drop_left
    rw [cons_append, cons_append, matchHex, taken, dropped]
    exact if_pos ⟨length, all⟩

lemma matchBlank_bind_iff {t rest : Text} {value : BitVec 64} :
    (matchBlank t).bind matchHex = some (value, rest) <->
      ∃ number, t = ' ' :: (number ++ rest) ∧ IsHexNumber number value := by
  constructor
  · intro matched
    rcases Option.bind_eq_some_iff.mp matched with ⟨behind, blank, hex⟩
    rcases matchHex_iff.mp hex with ⟨number, rfl, isNumber⟩
    unfold matchBlank at blank
    split at blank
    · cases blank
      exact ⟨number, rfl, isNumber⟩
    · cases blank
  · rintro ⟨number, rfl, isNumber⟩
    exact matchHex_iff.mpr ⟨number, rfl, isNumber⟩

lemma matchResourceLine_iff {line : Text} {base limit flags : BitVec 64} :
    matchResourceLine line = some (base, limit, flags) <-> IsResourceLine line base limit flags := by
  constructor
  · intro matched
    unfold matchResourceLine at matched
    split at matched
    · cases matched
    · rename_i isBase afterBase hasBase
      split at matched
      · cases matched
      · rename_i isLimit afterLimit hasLimit
        split at matched
        · cases matched
        · rename_i isFlags rest hasFlags
          split at matched
          · rename_i isEnd
            cases matched
            subst isEnd
            rcases matchHex_iff.mp hasBase with ⟨first, rfl, isFirst⟩
            rcases matchBlank_bind_iff.mp hasLimit with ⟨second, rfl, isSecond⟩
            rcases matchBlank_bind_iff.mp hasFlags with ⟨third, rfl, isThird⟩
            refine ⟨first, second, third, ?_, isFirst, isSecond, isThird⟩
            rw [append_nil]
          · cases matched
  · rintro ⟨first, second, third, rfl, isFirst, isSecond, isThird⟩
    have hasBase : matchHex (first ++ ' ' :: (second ++ ' ' :: third)) =
        some (base, ' ' :: (second ++ ' ' :: third)) :=
      matchHex_iff.mpr ⟨first, rfl, isFirst⟩
    have hasLimit : (matchBlank (' ' :: (second ++ ' ' :: third))).bind matchHex =
        some (limit, ' ' :: third) :=
      matchBlank_bind_iff.mpr ⟨second, rfl, isSecond⟩
    have hasFlags : (matchBlank (' ' :: third)).bind matchHex = some (flags, []) :=
      matchBlank_bind_iff.mpr ⟨third, by rw [append_nil], isThird⟩
    rw [matchResourceLine, hasBase]
    dsimp only
    rw [hasLimit]
    dsimp only
    rw [hasFlags]
    rfl

/-- The line of a register, if there is one. -/
def lineOf (contents : Text) (barId : BarNum) : Option Text :=
  (resourceLines contents)[barId.value.toNat]?

/-- Only a line that exists is accessed, and the answer is what this line tells. -/
structure AnswersLine (path contents : Text) (barId : BarNum) : Prop where
  inRange : getBaseAddressImpl path (.ok contents) barId ≠ .outOfRange
  ok_iff : ∀ info, getBaseAddressImpl path (.ok contents) barId = .value (.ok info) <->
    ∃ line base limit flags, lineOf contents barId = some line ∧
      IsResourceLine line base limit flags ∧ info = barInfo base flags

section

variable (path : Text) {contents : Text} (barId : BarNum)

/-- A file with fewer than five lines has no answer. -/
lemma getBaseAddressImpl_short (short : (resourceLines contents).length < kMaxBarNum) :
    getBaseAddressImpl path (.ok contents) barId =
      .value (.error (.internal (text "No bar information found in " ++ path))) :=
  if_pos short

section

variable (long : ¬ (resourceLines contents).length < kMaxBarNum)

include long

lemma getBaseAddressImpl_long :
    getBaseAddressImpl path (.ok contents) barId =
      match lineOf contents barId with
      | none => .outOfRange
      | some line =>
        match matchResourceLine line with
        | none => .value (.error (.internal (text "Error reading BAR information.")))
        | some (base, _, flags) => .value (.ok (barInfo base flags)) :=
  if_neg long

lemma answersLine_of_line {line : Text}
    (isLine : lineOf contents barId = some line) : AnswersLine path contents barId := by
  have answer := getBaseAddressImpl_long path barId long
  rw [isLine] at answer
  dsimp only at answer
  cases matched : matchResourceLine line with
  | none =>
    rw [matched] at answer
    constructor
    · rw [answer]
      intro impossible
      cases impossible
    · intro info
      rw [answer]
      constructor
      · intro impossible
        cases impossible
      · rintro ⟨other, base, limit, flags, isOther, isResource, _⟩
        rw [isLine] at isOther
        cases isOther
        rw [matchResourceLine_iff.mpr isResource] at matched
        cases matched
  | some numbers =>
    rcases numbers with ⟨base, limit, flags⟩
    rw [matched] at answer
    constructor
    · rw [answer]
      intro impossible
      cases impossible
    · intro info
      rw [answer]
      constructor
      · intro same
        cases same
        exact ⟨line, base, limit, flags, isLine, matchResourceLine_iff.mp matched, rfl⟩
      · rintro ⟨other, base', limit', flags', isOther, isResource, rfl⟩
        rw [isLine] at isOther
        cases isOther
        rw [matchResourceLine_iff.mpr isResource] at matched
        cases matched
        rfl

/-- With at least five lines only the sixth one may be missing. -/
lemma lineOf_none_iff :
    lineOf contents barId = none <-> (resourceLines contents).length = 5 ∧ barId.value = 5 := by
  have upper := barId.upper
  rw [kMaxBarNum] at long
  rw [lineOf, getElem?_eq_none_iff]
  omega

end

end

/-- The answer is right unless there are five lines and the sixth one is requested, or there are
fewer and the requested one has three numbers. -/
theorem getBaseAddressImpl_answers_iff :
    ∀ (path contents : Text) (barId : BarNum),
      AnswersLine path contents barId <->
        ¬ ((resourceLines contents).length = 5 ∧ barId.value = 5) ∧
        ¬ ((resourceLines contents).length < 5 ∧
          ∃ line base limit flags, lineOf contents barId = some line ∧
            IsResourceLine line base limit flags) := by
  intro path contents barId
  by_cases short : (resourceLines contents).length < kMaxBarNum
  · have answer := getBaseAddressImpl_short path barId short
    have fewer : (resourceLines contents).length < 5 := short
    constructor
    · intro answers
      refine ⟨fun five => absurd five.1 (Nat.ne_of_lt fewer), ?_⟩
      rintro ⟨_, line, base, limit, flags, isLine, isResource⟩
      have isOk := (answers.ok_iff _).mpr ⟨line, base, limit, flags, isLine, isResource, rfl⟩
      rw [answer] at isOk
      cases isOk
    · rintro ⟨_, noLine⟩
      constructor
      · rw [answer]
        intro impossible
        cases impossible
      · intro info
        rw [answer]
        constructor
        · intro impossible
          cases impossible
        · rintro ⟨line, base, limit, flags, isLine, isResource, _⟩
          exact absurd ⟨fewer, line, base, limit, flags, isLine, isResource⟩ noLine
  · have enough : ¬ (resourceLines contents).length < 5 := short
    constructor
    · intro answers
      refine ⟨?_, fun fewer => enough fewer.1⟩
      intro five
      have answer := getBaseAddressImpl_long path barId short
      rw [(lineOf_none_iff barId short).mpr five] at answer
      exact answers.inRange answer
    · rintro ⟨noFive, _⟩
      cases isLine : lineOf contents barId with
      | none => exact absurd ((lineOf_none_iff barId short).mp isLine) noFive
      | some line => exact answersLine_of_line path barId short isLine

/-- A file of five lines has no line for the sixth register. -/
theorem getBaseAddressImpl_five_lines :
    ¬ ∀ (path contents : Text) (barId : BarNum), AnswersLine path contents barId := by
  intro always
  have answers := always (text "resource") (text "\n\n\n\n\n") ⟨5, by decide, by decide⟩
  apply answers.inRange
  rw [getBaseAddressImpl_long _ _ (by decide +kernel),
    (lineOf_none_iff _ (by decide +kernel)).mpr (by decide +kernel)]

end Ecclesia.Pci
