import Ecclesia.RedPath.Filters
import Mathlib.Data.List.TakeWhile

namespace Ecclesia.RedPath

open Absl List

/-!
# What a filter selects

A filter selects the variant itself, one member of it, or those members that pass a test.  The
tests ask for a payload, and only a member that is an object has one.  Where the code does not
run into a fault it selects what is described here.
-/

/-- What a member is tested for. -/
inductive Test where
  | any
  | comparison (symbol property operand : Text)
  | nested (pieces : List Text)
  | presence (property : Text)

inductive Selector where
  | whole
  | last
  | position (index : Nat)
  | passing (test : Test)
  | nothing

/-- What the content of a filter means. -/
def readSelector (content : Text) : Selector :=
  if content.isEmpty then .whole
  else if content = kRedPathSelectAllElements then .passing .any
  else if content = kRedPathSelectLastElements then .last
  else
    match simpleAtoi64 content with
    | some index => .position index
    | none =>
      match matchComparison content with
      | some (property, symbol, operand) => .passing (.comparison symbol property operand)
      | none =>
        if strContains content (text ".") && !strContains content (text "@odata.") then
          .passing (.nested (splitNested content))
        else if !strContains content (text "=") then .passing (.presence content)
        else .nothing

/-- What a filter is applied to: the members, or the variant itself if it has none. -/
def candidates {Object Iterable : Type} (service : Service Object Iterable)
    (variant : RedfishVariant Object Iterable) : List (RedfishVariant Object Iterable) :=
  match variant.iterable with
  | some iterable => service.elements iterable
  | none => [variant]

section

variable (lib : NumberLibrary)

/-- Whether the value of a property compares as it is asked for. -/
def valueHolds (symbol operand : Text) (value : Json) : Bool :=
  match lib.simpleAtod operand with
  | some number =>
    match lib.simpleAtod (lib.dump value) with
    | some stored => compareNumbers lib symbol number stored
    | none => false
  | none =>
    let equal :=
      if operand = text "false" ∨ operand = text "true" then
        value.equalsBoolean (operand != text "false")
      else if operand = text "null" then value.isEmpty
      else value.equalsText operand
    if symbol = text "!=" then !equal else equal

/-- What a number, a boolean or the null value says about a piece that is taken for the last
one. -/
def settled (piece : Text) : Json -> Option Bool
  | .null => some (piece == text "null")
  | .integer value => some (lib.dump (.integer value) == piece)
  | .unsigned value => some (lib.dump (.unsigned value) == piece)
  | .float value => some (lib.dump (.float value) == piece)
  | .boolean value => some ((piece != text "false") == value)
  | _ => none

/-- Whether the pieces are found, where one that is equal to the last one is not followed. -/
def passes (back : Text) : List Text -> Json -> Bool
  | [], _ => true
  | piece :: rest, json =>
    if piece = back then
      match settled lib piece json with
      | some answer => answer
      | none => (json.contains piece || json.equalsText piece) && passes back rest json
    else
      match json.find piece with
      | some child => passes back rest child
      | none => false

/-- A piece that is not equal to the last one is met by a text that is equal to it. -/
def Trips (back : Text) : List Text -> Json -> Prop
  | [], _ => False
  | piece :: rest, json =>
    if piece = back then
      settled lib piece json = none ∧ (json.contains piece || json.equalsText piece) = true ∧
        Trips back rest json
    else json.equalsText piece = true ∨ ∃ child, json.find piece = some child ∧
      Trips back rest child

def Test.holdsOf : Test -> Json -> Bool
  | .any, _ => true
  | .comparison symbol property operand, json =>
    match json.find property with
    | some value => valueHolds lib symbol operand value
    | none => false
  | .nested pieces, json => passes lib (pieces.getLastD []) pieces json
  | .presence property, json => json.contains property

def Test.TripsOver : Test -> Json -> Prop
  | .nested pieces, json => Trips lib (pieces.getLastD []) pieces json
  | _, _ => False

variable {Object Iterable : Type} (service : Service Object Iterable)

def Test.holds (test : Test) (candidate : RedfishVariant Object Iterable) : Bool :=
  match test, candidate.object with
  | .any, _ => true
  | test, some object => test.holdsOf lib (service.getContentAsJson object)
  | _, none => false

/-- What a test must not be applied to. -/
def Test.Faults (test : Test) (candidate : RedfishVariant Object Iterable) : Prop :=
  match test, candidate.object with
  | .any, _ => False
  | test, some object => test.TripsOver lib (service.getContentAsJson object)
  | _, none => True

def Selector.select (selector : Selector) (variant : RedfishVariant Object Iterable) :
    List (RedfishVariant Object Iterable) :=
  match selector with
  | .whole => [variant]
  | .last =>
    match variant.iterable with
    | some members => [service.indexPosition variant (lastIndex (service.size members))]
    | none => []
  | .position index => [service.indexPosition variant index]
  | .passing test => (candidates service variant).filter (test.holds lib service)
  | .nothing => []

def Selector.Faults (selector : Selector) (variant : RedfishVariant Object Iterable) : Prop :=
  match selector with
  | .passing test =>
    ∃ candidate ∈ candidates service variant, test.Faults lib service candidate
  | _ => False

end

lemma splitByText_before {separator : Text} {mark : Char} (starts : separator.head? = some mark)
    {before : Text} (unmarked : mark ∉ before) (piece rest : Text) :
    splitByText separator 0 piece (before ++ rest) = splitByText separator 0 (piece ++ before) rest := by
  induction before generalizing piece with
  | nil => rw [nil_append, append_nil]
  | cons c before ih =>
    have different : ¬ separator.isPrefixOf (c :: (before ++ rest)) = true := by
      intro isPrefix
      cases separator with
      | nil => cases starts
      | cons first separator =>
        cases starts
        rw [List.isPrefixOf, Bool.and_eq_true, beq_iff_eq] at isPrefix
        exact unmarked (isPrefix.1 ▸ (.head _))
    rw [cons_append, splitByText, if_neg different,
      ih fun member => unmarked (.tail _ member), append_assoc]
    rfl

lemma splitByText_skip (separator skipped piece rest : Text) :
    splitByText separator skipped.length piece (skipped ++ rest) =
      splitByText separator 0 piece rest := by
  induction skipped with
  | nil => rfl
  | cons c skipped ih => exact ih

lemma strSplitByText_two {symbol : Text} {mark : Char} (starts : symbol.head? = some mark)
    {name operand : Text} (before : mark ∉ name) (after : mark ∉ operand) :
    strSplitByText symbol (name ++ (symbol ++ operand)) = [name, operand] := by
  have ends := splitByText_before starts after [] []
  rw [append_nil] at ends
  have isPrefix : symbol.isPrefixOf (symbol ++ operand) = true :=
    List.isPrefixOf_iff_prefix.mpr (prefix_append symbol operand)
  rw [strSplitByText, splitByText_before starts before]
  cases symbol with
  | nil => cases starts
  | cons first symbol =>
    rw [cons_append] at isPrefix ⊢
    rw [splitByText, if_pos isPrefix]
    exact congrArg (List.cons name) ((splitByText_skip _ symbol [] operand).trans ends)

lemma not_inequality {isPart : Char -> Bool} (signs : ['<', '>', '!', '='].any isPart = false)
    {c : Char} (part : isPart c = true) : isInequality c = false := by
  rw [Bool.eq_false_iff]
  intro inequality
  have sign : c ∈ ['<', '>', '!', '='] := by
    simp only [isInequality, Bool.or_eq_true, beq_iff_eq] at inequality
    rcases inequality with ((rfl | rfl) | rfl) | rfl <;> decide
  exact any_eq_false.mp signs c sign part

lemma strSplitByText_matchComparison {content name symbol operand : Text}
    (matched : matchComparison content = some (name, symbol, operand)) :
    strSplitByText symbol content = [name, operand] := by
  have whole := takeWhile_append_dropWhile (p := asciiIsAlpha) (l := content)
  have others := takeWhile_append_dropWhile (p := isInequality)
    (l := content.dropWhile asciiIsAlpha)
  unfold matchComparison at matched
  dsimp only at matched
  split at matched
  · cases matched
  · rename_i wellFormed
    rw [Option.some.injEq, Prod.mk.injEq, Prod.mk.injEq] at matched
    rcases matched with ⟨nameIs, symbolIs, operandIs⟩
    rw [symbolIs, operandIs, Bool.or_eq_true, Bool.or_eq_true, not_or, not_or, Bool.not_eq_true,
      Bool.not_eq_true, Bool.not_eq_true, Bool.not_eq_false', all_eq_true] at wellFormed
    rw [symbolIs, operandIs] at others
    rw [nameIs, <- others] at whole
    cases symbol with
    | nil => cases wellFormed.1.2
    | cons mark symbol =>
      have isMark : isInequality mark = true := mem_takeWhile_imp (symbolIs ▸ mem_cons_self)
      rw [<- whole]
      apply strSplitByText_two rfl
      · intro member
        have alpha := mem_takeWhile_imp (nameIs.symm ▸ member)
        rw [not_inequality (by decide) alpha] at isMark
        cases isMark
      · intro member
        rw [not_inequality (by decide) (wellFormed.2 mark member)] at isMark
        cases isMark

end Ecclesia.RedPath
