import Ecclesia.Json.PropertyPath
import Ecclesia.Types.FixedRangeInt

namespace Ecclesia.Usb

open Absl List
open PathUtil (simpleAtoi32_digits simpleAtoi32_strCatNat strCatNat_digits)

/-!
# Locations of USB devices

Every USB device has a directory in sysfs whose name tells its bus and the ports it is connected
behind.  A port number that does not fit is not an error for the reader of such a name: it leaves
this port out.

The definitions follow `usb.h`, `usb.cc` and `sysfs.cc`.
-/

abbrev UsbPort : Type := FixedRangeInteger 1 15

abbrev UsbBusLocation : Type := FixedRangeInteger 1 255

/-- `UsbPortSequence::kDeviceChainMaxLength` -/
def kDeviceChainMaxLength : Nat := 6

/-- `UsbPortSequence`: the ports that are populated. -/
structure UsbPortSequence where
  ports : List UsbPort
  bounded : ports.length <= kDeviceChainMaxLength
deriving DecidableEq

namespace UsbPortSequence

def empty : UsbPortSequence := ⟨[], Nat.zero_le _⟩

def downstream (sequence : UsbPortSequence) (port : UsbPort) : Option UsbPortSequence :=
  if full : sequence.ports.length = kDeviceChainMaxLength then none
  else some
    { ports := sequence.ports ++ [port]
      bounded := by
        rw [List.length_append, List.length_singleton]
        exact Nat.lt_of_le_of_ne sequence.bounded full }

end UsbPortSequence

structure UsbLocation where
  bus : UsbBusLocation
  ports : UsbPortSequence
deriving DecidableEq

def usbLocationToDirectory (loc : UsbLocation) : Text :=
  if loc.ports.ports = [] then text "usb" ++ strCatInt loc.bus.value
  else
    strCatInt loc.bus.value ++
      '-' :: strJoin (loc.ports.ports.map fun port => strCatInt port.value) (text ".")

/-- Digits that are read into an `int` by a regular expression, if they fit. -/
def matchInt (digits : Text) : Option Int :=
  simpleAtoi32.bounded digits

variable (dirname : Text)

/-- `kUsbDirRegex` -/
def matchUsbDir : Option Int :=
  if startsWith dirname (text "usb") then matchInt (dirname.drop 3) else none

/-- `\d+` -/
def isNumber (t : Text) : Bool :=
  !t.isEmpty && t.all asciiIsDigit

/-- `kUsbBusPortRegex`: the bus, and the text of the ports. -/
def matchUsbBusPort : Option (Int × Text) :=
  match dirname.dropWhile asciiIsDigit with
  | '-' :: portSubstr =>
    if (strSplit '.' portSubstr).all isNumber then
      (matchInt (dirname.takeWhile asciiIsDigit)).map fun bus => (bus, portSubstr)
    else none
  | _ => none

def addPort (seq : UsbPortSequence) (port : Int) : UsbPortSequence :=
  match (FixedRangeInteger.tryMake port : Option UsbPort) with
  | none => seq
  | some usbPort => (seq.downstream usbPort).getD seq

/-- The loop of `DirectoryToUsbLocation` over the texts of the ports. -/
def collectPorts : UsbPortSequence -> List Text -> Option UsbPortSequence
  | seq, [] => some seq
  | seq, portStr :: rest =>
    match simpleAtoi32 portStr with
    | none => none
    | some port => collectPorts (addPort seq port) rest

def directoryToUsbLocation : Option UsbLocation :=
  match matchUsbDir dirname with
  | some bus =>
    (FixedRangeInteger.tryMake bus).map fun usbBus => ⟨usbBus, .empty⟩
  | none =>
    match matchUsbBusPort dirname with
    | none => none
    | some (bus, portSubstr) =>
      match (FixedRangeInteger.tryMake bus : Option UsbBusLocation) with
      | none => none
      | some usbBus =>
        (collectPorts .empty ((strSplit '.' portSubstr).filter fun piece => !piece.isEmpty)).map
          fun seq => ⟨usbBus, seq⟩

def getBasename (path : Text) : Text :=
  ((path.reverse.dropWhile (· == '/')).takeWhile (· != '/')).reverse

/-- `EnumerateAllUsbDevices` for the entries of the directory of devices. -/
def enumerateAllUsbDevices (usbDeviceEntries : List Text) : List UsbLocation :=
  usbDeviceEntries.filterMap fun entry => directoryToUsbLocation (getBasename entry)

/-- A zero in front of a digit is behind another digit. -/
def NoLeadingZeros : Prop :=
  ∀ before next after, dirname = before ++ '0' :: next :: after ->
    asciiIsDigit next = true -> before.getLast?.any asciiIsDigit = true

/-- The name is read as its location only, and this location is written as the name. -/
def Identifies : Prop :=
  ∀ location, directoryToUsbLocation dirname = some location ->
    usbLocationToDirectory location = dirname

/-- If all parts of a name are read, at most six ports are in the range of ports. -/
def PortsFit : Prop :=
  ∀ bus portSubstr numbers, matchUsbBusPort dirname = some (bus, portSubstr) ->
    1 <= bus ∧ bus <= 255 -> (strSplit '.' portSubstr).mapM simpleAtoi32 = some numbers ->
    numbers.length <= kDeviceChainMaxLength ∧ ∀ port ∈ numbers, 1 <= port ∧ port <= 15

def digitsValue (digits : Text) : Nat :=
  digits.foldl (fun value c => 10 * value + digitValue c) 0

/-- There is no zero in front, except for zero itself. -/
def Plain (digits : Text) : Prop :=
  digits.head? = some '0' -> digits = ['0']

variable {digits : Text} {value : Int}

lemma matchInt_eq_some : matchInt digits = some value <->
    isNumber digits = true ∧ value = digitsValue digits ∧ digitsValue digits < 2 ^ 31 := by
  unfold matchInt simpleAtoi32.bounded parseDigits isNumber
  cases empty : digits.isEmpty with
  | true => simp
  | false =>
    cases all : digits.all asciiIsDigit with
    | false => simp
    | true =>
      simp only [Bool.not_true, Bool.or_false, Bool.not_false, Bool.true_and, Bool.false_eq_true,
        if_false, true_and]
      split
      · rename_i small
        rw [Option.some.injEq]
        exact ⟨fun same => ⟨same.symm, small⟩, fun both => both.1.symm⟩
      · rename_i large
        exact iff_of_false (by simp) fun both => large both.2

lemma isNumber_iff {t : Text} : isNumber t = true <-> t ≠ [] ∧ t.all asciiIsDigit = true := by
  rw [isNumber, Bool.and_eq_true, Bool.not_eq_true', isEmpty_eq_false_iff]

lemma toDigits_digitValue {c : Char} (digit : asciiIsDigit c = true) :
    digitValue c < 10 ∧ Nat.toDigits 10 (digitValue c) = [c] := by
  rw [asciiIsDigit, Bool.and_eq_true, decide_eq_true_eq, decide_eq_true_eq] at digit
  have low : 48 <= c.toNat := digit.1
  have high : c.toNat <= 57 := digit.2
  have value : digitValue c = c.toNat - 48 := rfl
  have small : digitValue c < 10 := by omega
  refine ⟨small, ?_⟩
  rw [Nat.toDigits_of_lt_base small]
  refine congrArg (fun c => [c]) (Char.toNat_inj.mp ?_)
  rw [Nat.toNat_digitChar_of_lt_ten small]
  omega

lemma digitsValue_concat (digits : Text) (c : Char) :
    digitsValue (digits ++ [c]) = 10 * digitsValue digits + digitValue c := by
  rw [digitsValue, foldl_append]
  rfl

/-- A text of digits without a zero in front is the decimal text of its value. -/
lemma strCatNat_digitsValue (some_ : digits ≠ []) (all : digits.all asciiIsDigit = true)
    (plain : Plain digits) : strCatNat (digitsValue digits) = digits := by
  induction digits using reverseRecOn with
  | nil => exact absurd rfl some_
  | append_singleton digits c ih =>
    rw [all_append, Bool.and_eq_true] at all
    have digit := all_eq_true.mp all.2 c (mem_singleton_self c)
    rcases toDigits_digitValue digit with ⟨small, text_⟩
    rw [digitsValue_concat]
    cases digits with
    | nil =>
      change Nat.toDigits 10 (10 * 0 + digitValue c) = [c]
      rw [Nat.zero_add]
      exact text_
    | cons first rest =>
      have noZero : first ≠ '0' := by
        rintro rfl
        have same := congrArg List.length (plain rfl)
        simp at same
      have before : strCatNat (digitsValue (first :: rest)) = first :: rest := by
        apply ih (cons_ne_nil _ _) all.1
        intro zero
        exact absurd (Option.some.inj zero) noZero
      have positive : 0 < digitsValue (first :: rest) := by
        apply Nat.pos_of_ne_zero
        intro zero
        rw [zero] at before
        exact noZero (cons.inj before).1.symm
      rw [strCatNat, <- Nat.toDigits_append_toDigits (by decide) positive small, text_]
      exact congrArg (· ++ [c]) before

lemma strCatInt_of_nonneg (nonneg : 0 <= value) : strCatInt value = strCatNat value.toNat := by
  cases value with
  | ofNat n => rfl
  | negSucc n => exact absurd nonneg (Int.not_le.mpr (Int.negSucc_lt_zero n))

lemma strCatInt_matchInt (read : matchInt digits = some value)
    (plain : Plain digits) : strCatInt value = digits := by
  rcases matchInt_eq_some.mp read with ⟨number, rfl, _⟩
  rcases isNumber_iff.mp number with ⟨some_, all⟩
  exact strCatNat_digitsValue some_ all plain

/-- A number of a range of the program is read back from its text. -/
lemma matchInt_strCatInt (nonneg : 0 <= value) (small : value < 2 ^ 31) :
    isNumber (strCatInt value) = true ∧ simpleAtoi32 (strCatInt value) = some value ∧
      matchInt (strCatInt value) = some value := by
  have digits := strCatNat_digits value.toNat
  have read := @simpleAtoi32_strCatNat value.toNat (by omega)
  rw [Int.toNat_of_nonneg nonneg] at read
  rw [strCatInt_of_nonneg nonneg]
  refine ⟨isNumber_iff.mpr ⟨Nat.toDigits_ne_nil, digits⟩, read, ?_⟩
  rwa [matchInt, <- simpleAtoi32_digits digits]

end Ecclesia.Usb
