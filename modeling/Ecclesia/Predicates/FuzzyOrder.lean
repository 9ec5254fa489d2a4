import Ecclesia.Predicates.Comparison
import Mathlib.Data.Char
import Mathlib.Data.List.Lex
import Mathlib.Data.List.TakeWhile
import Mathlib.Data.Rat.Floor
import Mathlib.Data.Sum.Order

namespace Ecclesia.Predicates

open Absl List

/-!
# The order of fuzzy string comparison

`FuzzyStringComparison` reads both strings token by token: a decimal number where there is a
digit, and a single character elsewhere.  What it reads of one string does not depend on the
other, so it would compare the tokens in their lexicographic order, if the difference of two
numbers were not converted to an `int`.  A difference below one becomes zero, and the
comparison goes on behind numbers that are not equal.
-/

/-! ## Decimal literals -/

/-- The value of a run of digits. -/
def naturalOf (digits : Text) : Nat :=
  digits.foldl (fun value c => 10 * value + digitValue c) 0

/-- The fraction of a literal and what follows it. -/
def readFraction : Text -> Text × Text
  | '.' :: rest => (rest.takeWhile asciiIsDigit, rest.dropWhile asciiIsDigit)
  | rest => ([], rest)

/-- The digits of an exponent.  Without any, nothing of the exponent is read. -/
def readExponentDigits (sign : Int) (digits whole : Text) : Int × Text :=
  if (digits.takeWhile asciiIsDigit).isEmpty then (0, whole)
  else (sign * naturalOf (digits.takeWhile asciiIsDigit), digits.dropWhile asciiIsDigit)

def readExponent : Text -> Int × Text
  | c :: rest =>
    if c = 'e' ∨ c = 'E' then
      match rest with
      | '-' :: digits => readExponentDigits (-1) digits (c :: rest)
      | '+' :: digits => readExponentDigits 1 digits (c :: rest)
      | digits => readExponentDigits 1 digits (c :: rest)
    else (0, c :: rest)
  | [] => (0, [])

variable (t : Text)

/-- The longest decimal literal at a digit: its exact value, and what follows it. -/
def decimalLiteral : Rat × Text :=
  let whole := t.takeWhile asciiIsDigit
  let fraction := readFraction (t.dropWhile asciiIsDigit)
  let exponent := readExponent fraction.2
  ((naturalOf (whole ++ fraction.1) : Rat) / 10 ^ fraction.1.length * 10 ^ exponent.1, exponent.2)

/-- A number without its fraction. -/
def truncate (x : Rat) : Int :=
  x.num.tdiv x.den

variable (outside : Rat -> Int)

/-- `static_cast<int>`: the fraction is cut off, and what is no `int` afterwards is
undefined. -/
def castToInt (difference : Rat) : Int :=
  if -2 ^ 31 <= truncate difference ∧ truncate difference < 2 ^ 31 then truncate difference
  else outside difference

def exactLibrary : NumericLibrary where
  Double := Rat
  double := ⟨fun l r => decide (l < r), fun l r => decide (l <= r), fun l r => decide (l = r)⟩
  simpleAtod := fun t =>
    if t.head?.any asciiIsDigit && (decimalLiteral t).2.isEmpty then some (decimalLiteral t).1
    else none
  ofInteger := fun n => n
  ofUnsigned := fun n => n
  ofFloat := id
  fromChars := fun t => if t.head?.any asciiIsDigit then some (decimalLiteral t) else none
  truncatedDifference := fun l r => castToInt outside (l - r)
  Time := Text
  time := ⟨fun _ _ => false, fun _ _ => false, fun l r => l == r⟩
  parseTime := fun _ _ => none
  dump := fun _ => []
  formatDouble := fun _ => []

/-! ## Tokens -/

/-- What the comparison reads at once. -/
inductive StringToken where
  | number (value : Rat)
  | character (c : Char)
deriving DecidableEq

lemma dropWhile_length_le (test : Char -> Bool) (t : Text) :
    (t.dropWhile test).length <= t.length :=
  (dropWhile_suffix test).length_le

lemma readFraction_length_le : (readFraction t).2.length <= t.length := by
  unfold readFraction
  split
  · exact Nat.le_succ_of_le (dropWhile_length_le asciiIsDigit _)
  · exact le_refl _

variable {digits : Text}

lemma readExponentDigits_length_le (sign : Int) {whole : Text}
    (shorter : digits.length <= whole.length) :
    (readExponentDigits sign digits whole).2.length <= whole.length := by
  unfold readExponentDigits
  split
  · exact le_refl _
  · exact le_trans (dropWhile_length_le asciiIsDigit digits) shorter

lemma readExponent_length_le : (readExponent t).2.length <= t.length := by
  unfold readExponent
  split
  · split
    · split
      · exact readExponentDigits_length_le _ (by simp only [length_cons]; omega)
      · exact readExponentDigits_length_le _ (by simp only [length_cons]; omega)
      · exact readExponentDigits_length_le _ (by simp only [length_cons]; omega)
    · exact le_refl _
  · exact le_refl _

variable {c : Char}

lemma decimalLiteral_length_lt (digit : asciiIsDigit c = true) (rest : Text) :
    (decimalLiteral (c :: rest)).2.length < (c :: rest).length := by
  have behind : ((c :: rest).dropWhile asciiIsDigit).length <= rest.length := by
    rw [dropWhile_cons_of_pos digit]
    exact dropWhile_length_le asciiIsDigit rest
  exact Nat.lt_succ_of_le (le_trans (readExponent_length_le _)
    (le_trans (readFraction_length_le _) behind))

def tokens : Text -> List StringToken
  | [] => []
  | c :: rest =>
    if _digit : asciiIsDigit c = true then
      .number (decimalLiteral (c :: rest)).1 :: tokens (decimalLiteral (c :: rest)).2
    else .character c :: tokens rest
termination_by t => t.length
decreasing_by
  · exact decimalLiteral_length_lt _digit rest
  · exact Nat.lt_succ_self _

lemma tokens_nil : tokens [] = [] := by
  rw [tokens]

lemma tokens_digit (digit : asciiIsDigit c = true) (rest : Text) :
    tokens (c :: rest) =
      .number (decimalLiteral (c :: rest)).1 :: tokens (decimalLiteral (c :: rest)).2 := by
  rw [tokens, dif_pos digit]

lemma tokens_other (other : asciiIsDigit c = false) (rest : Text) :
    tokens (c :: rest) = .character c :: tokens rest := by
  rw [tokens, dif_neg (by rw [other]; exact Bool.false_ne_true)]

lemma tokens_cons (c : Char) (rest : Text) :
    ∃ token others, tokens (c :: rest) = token :: others := by
  cases digit : asciiIsDigit c with
  | true => exact ⟨_, _, tokens_digit digit rest⟩
  | false => exact ⟨_, _, tokens_other digit rest⟩

def compareTokens (outside : Rat -> Int) : List StringToken -> List StringToken -> Int
  | [], [] => 0
  | _ :: _, [] => -1
  | [], _ :: _ => 1
  | .number x :: lhs, .number y :: rhs =>
    if castToInt outside (x - y) ≠ 0 then castToInt outside (x - y)
    else compareTokens outside lhs rhs
  | .number _ :: _, .character _ :: _ => -1
  | .character _ :: _, .number _ :: _ => 1
  | .character c :: lhs, .character d :: rhs =>
    if c ≠ d then (c.toNat : Int) - d.toNat else compareTokens outside lhs rhs

variable (wholeLhs wholeRhs : Text)

lemma fuzzyLoop_numbers (fuel : Nat) {l r : Char} (leftDigit : asciiIsDigit l = true)
    (rightDigit : asciiIsDigit r = true) (lhs rhs : Text) :
    fuzzyLoop (exactLibrary outside) wholeLhs wholeRhs (fuel + 2) true (l :: lhs) (r :: rhs) =
      if castToInt outside ((decimalLiteral (l :: lhs)).1 - (decimalLiteral (r :: rhs)).1) ≠ 0
      then .ok (castToInt outside ((decimalLiteral (l :: lhs)).1 - (decimalLiteral (r :: rhs)).1))
      else fuzzyLoop (exactLibrary outside) wholeLhs wholeRhs fuel true
        (decimalLiteral (l :: lhs)).2 (decimalLiteral (r :: rhs)).2 := by
  have leftRead : (exactLibrary outside).fromChars (l :: lhs) =
      some (decimalLiteral (l :: lhs)) := if_pos leftDigit
  have rightRead : (exactLibrary outside).fromChars (r :: rhs) =
      some (decimalLiteral (r :: rhs)) := if_pos rightDigit
  rw [fuzzyLoop, leftDigit, rightDigit]
  rw [fuzzyLoop, leftRead, rightRead]
  rfl

lemma fuzzyLoop_characters (fuel : Nat) {l r : Char} (leftOther : asciiIsDigit l = false)
    (rightOther : asciiIsDigit r = false) (lhs rhs : Text) :
    fuzzyLoop (exactLibrary outside) wholeLhs wholeRhs (fuel + 1) true (l :: lhs) (r :: rhs) =
      if l ≠ r then .ok ((l.toNat : Int) - r.toNat)
      else fuzzyLoop (exactLibrary outside) wholeLhs wholeRhs fuel true lhs rhs := by
  rw [fuzzyLoop, leftOther, rightOther]
  rfl

lemma fuzzyLoop_eq {fuel : Nat} {lhs rhs : Text} (enough : 2 * lhs.length < fuel) :
    fuzzyLoop (exactLibrary outside) wholeLhs wholeRhs fuel true lhs rhs =
      .ok (compareTokens outside (tokens lhs) (tokens rhs)) := by
  induction fuel using Nat.strong_induction_on generalizing lhs rhs with
  | h fuel ih =>
    rcases lhs with _ | ⟨l, lhs⟩
    · rcases rhs with _ | ⟨r, rhs⟩
      · cases fuel <;> rw [fuzzyLoop, tokens, compareTokens]
      · rw [tokens_nil]
        rcases tokens_cons r rhs with ⟨token, others, read⟩
        rw [read, compareTokens]
        cases fuel <;> rw [fuzzyLoop]
    · rcases rhs with _ | ⟨r, rhs⟩
      · rw [tokens_nil]
        rcases tokens_cons l lhs with ⟨token, others, read⟩
        rw [read, compareTokens]
        cases fuel <;> rw [fuzzyLoop]
      · rw [length_cons] at enough
        rcases fuel with _ | _ | fuel
        · omega
        · omega
        · cases leftDigit : asciiIsDigit l with
          | true =>
            cases rightDigit : asciiIsDigit r with
            | true =>
              have shorter := decimalLiteral_length_lt leftDigit lhs
              rw [length_cons] at shorter
              have later : fuzzyLoop (exactLibrary outside) wholeLhs wholeRhs fuel true
                  (decimalLiteral (l :: lhs)).2 (decimalLiteral (r :: rhs)).2 = _ :=
                ih fuel (by omega) (by omega)
              rw [fuzzyLoop_numbers outside wholeLhs wholeRhs fuel leftDigit rightDigit,
                later, tokens_digit leftDigit, tokens_digit rightDigit, compareTokens]
              split_ifs
              · rfl
              · rfl
            | false =>
              rw [fuzzyLoop, leftDigit, rightDigit, tokens_digit leftDigit, tokens_other rightDigit]
              rfl
          | false =>
            cases rightDigit : asciiIsDigit r with
            | true =>
              rw [fuzzyLoop, leftDigit, rightDigit, tokens_other leftDigit, tokens_digit rightDigit]
              rfl
            | false =>
              have later : fuzzyLoop (exactLibrary outside) wholeLhs wholeRhs (fuel + 1)
                  true lhs rhs = _ :=
                ih (fuel + 1) (by omega) (by omega)
              rw [fuzzyLoop_characters outside wholeLhs wholeRhs (fuel + 1) leftDigit
                  rightDigit, later, tokens_other leftDigit, tokens_other rightDigit,
                compareTokens]
              split_ifs
              · rfl
              · rfl

lemma fuzzyStringComparison_eq (lhs rhs : Text) :
    fuzzyStringComparison (exactLibrary outside) lhs rhs =
      .ok (compareTokens outside (tokens lhs) (tokens rhs)) :=
  fuzzyLoop_eq outside lhs rhs (Nat.lt_succ_self _)

/-! ## The order of tokens -/

/-- Numbers come before characters, and both before the end. -/
abbrev Place := WithTop (Lex (Rat ⊕ Char))

def StringToken.rank : StringToken -> Lex (Rat ⊕ Char)
  | .number value => toLex (.inl value)
  | .character c => toLex (.inr c)

/-- The place of a list in the order: what ends comes last. -/
def placeOf (read : List StringToken) : List Place :=
  read.map (fun token => (token.rank : Place)) ++ [⊤]

/-- Two numbers are equal, or an `int` can tell their difference. -/
def StandApart (x y : Rat) : Prop :=
  x = y ∨ (1 <= |x - y| ∧ |x - y| < 2 ^ 31)

/-- Where two lists differ first, there are no two numbers whose difference is lost. -/
def Apart : List StringToken -> List StringToken -> Prop
  | .number x :: lhs, .number y :: rhs => StandApart x y ∧ (x = y -> Apart lhs rhs)
  | .character c :: lhs, .character d :: rhs => c = d -> Apart lhs rhs
  | _, _ => True

/-- A comparison agrees with the order. -/
structure AgreesWith (value : Int) (lhs rhs : List StringToken) : Prop where
  below : value < 0 ↔ placeOf lhs < placeOf rhs
  same : value = 0 ↔ lhs = rhs

/-! ## Differences -/

variable {x : Rat}

lemma truncate_nonneg (nonneg : 0 <= x) : truncate x = ⌊x⌋ := by
  rw [truncate, Rat.floor_def', Int.tdiv_eq_ediv_of_nonneg (Rat.num_nonneg.mpr nonneg)]

lemma truncate_neg (x : Rat) : truncate (-x) = -truncate x := by
  rw [truncate, truncate, Rat.neg_num, Rat.neg_den, Int.neg_tdiv]

/-- What is lost is a difference below one. -/
lemma truncate_eq_zero (small : |x| < 1) : truncate x = 0 := by
  rcases abs_lt.mp small with ⟨above, below⟩
  rcases le_total 0 x with nonneg | negative
  · rw [truncate_nonneg nonneg, Int.floor_eq_zero_iff]
    exact ⟨nonneg, below⟩
  · have floor : ⌊-x⌋ = 0 := by
      rw [Int.floor_eq_zero_iff]
      exact ⟨by linarith, by linarith⟩
    rw [<- neg_neg x, truncate_neg, truncate_nonneg (by linarith), floor, neg_zero]

/-- A difference that an `int` can tell keeps its sign. -/
lemma castToInt_positive (large : 1 <= x) (small : x < 2 ^ 31) :
    0 < castToInt outside x ∧ castToInt outside (-x) < 0 := by
  have one : (1 : Int) <= ⌊x⌋ := Int.le_floor.mpr (by exact_mod_cast large)
  have bound : ⌊x⌋ < 2 ^ 31 := Int.floor_lt.mpr (by exact_mod_cast small)
  have truncated := truncate_nonneg (le_trans zero_le_one large)
  constructor
  · rw [castToInt]
    omega
  · rw [castToInt, truncate_neg]
    omega

lemma castToInt_zero : castToInt outside 0 = 0 := by
  rfl

lemma StandApart.castToInt {y : Rat} (apart : StandApart x y) (outside : Rat -> Int) :
    (castToInt outside (x - y) = 0 ↔ x = y) ∧ (castToInt outside (x - y) < 0 ↔ x < y) := by
  rcases apart with same | ⟨large, small⟩
  · rw [same, sub_self, castToInt_zero]
    simp
  · rcases le_total 0 (x - y) with nonneg | negative
    · rw [abs_of_nonneg nonneg] at large small
      have positive := (castToInt_positive outside large small).1
      constructor
      · constructor
        · intro zero
          omega
        · intro same
          linarith
      · constructor
        · intro below
          omega
        · intro below
          linarith
    · rw [abs_of_nonpos negative] at large small
      have below := (castToInt_positive outside large small).2
      rw [neg_neg] at below
      constructor
      · constructor
        · intro zero
          omega
        · intro same
          linarith
      · constructor
        · intro _
          linarith
        · intro _
          exact below

/-! ## The comparison and the order -/

lemma placeOf_cons (token : StringToken) (rest : List StringToken) :
    placeOf (token :: rest) = (token.rank : Place) :: placeOf rest := rfl

lemma placeOf_nil : placeOf [] = [⊤] := rfl

/-- Equal first tokens do not decide. -/
lemma AgreesWith.cons {value : Int} {lhs rhs : List StringToken} (agrees : AgreesWith value lhs rhs)
    (token : StringToken) : AgreesWith value (token :: lhs) (token :: rhs) where
  below := by
    rw [agrees.below, placeOf_cons, placeOf_cons, cons_lt_cons_iff]
    constructor
    · intro later
      exact .inr ⟨rfl, later⟩
    · rintro (first | ⟨-, later⟩)
      · exact absurd first (lt_irrefl (token.rank : Place))
      · exact later
  same := by
    rw [agrees.same]
    simp

lemma StringToken.rank_injective {first second : StringToken} (same : first.rank = second.rank) :
    first = second := by
  cases first with
  | number x =>
    cases second with
    | number y => exact congrArg StringToken.number (Sum.inl.inj (toLex.injective same))
    | character d => cases toLex.injective same
  | character c =>
    cases second with
    | number y => cases toLex.injective same
    | character d => exact congrArg StringToken.character (Sum.inr.inj (toLex.injective same))

variable {value : Int}

lemma AgreesWith.decided {first second : StringToken} (lhs rhs : List StringToken)
    (differ : first ≠ second) (decides : value ≠ 0) (below : value < 0 ↔ first.rank < second.rank) :
    AgreesWith value (first :: lhs) (second :: rhs) where
  below := by
    have apart : first.rank ≠ second.rank := fun same => differ (StringToken.rank_injective same)
    rw [below, placeOf_cons, placeOf_cons, cons_lt_cons_iff, WithTop.coe_lt_coe, WithTop.coe_inj]
    constructor
    · exact .inl
    · rintro (first | ⟨same, -⟩)
      · exact first
      · exact absurd same apart
  same := by
    simp [decides, differ]

lemma agrees_longer (first : StringToken)
    (lhs : List StringToken) : AgreesWith (-1) (first :: lhs) [] where
  below := by
    have last : placeOf (first :: lhs) < placeOf [] := by
      rw [placeOf_cons, placeOf_nil, cons_lt_cons_iff]
      exact .inl (WithTop.coe_lt_top first.rank)
    exact ⟨fun _ => last, fun _ => by decide⟩
  same := by simp

lemma agrees_shorter (second : StringToken) (rhs : List StringToken) :
    AgreesWith 1 [] (second :: rhs) where
  below := by
    have last : ¬ placeOf [] < placeOf (second :: rhs) := by
      rw [placeOf_cons, placeOf_nil, cons_lt_cons_iff]
      rintro (first | ⟨same, -⟩)
      · exact absurd first not_top_lt
      · cases same
    exact ⟨fun impossible => absurd impossible (by decide),
      fun impossible => absurd impossible last⟩
  same := by simp

lemma agrees_nil : AgreesWith 0 [] [] where
  below := ⟨fun impossible => absurd impossible (by decide),
    fun impossible => absurd impossible (lt_irrefl (placeOf []))⟩
  same := by simp

variable {lhs rhs : List StringToken}

lemma agrees_characters {d : Char} (later : c = d -> AgreesWith value lhs rhs) :
    AgreesWith (if c ≠ d then (c.toNat : Int) - d.toNat else value) (.character c :: lhs)
      (.character d :: rhs) := by
  by_cases same : c = d
  · rw [if_neg (not_not.mpr same), same]
    exact (later same).cons (.character d)
  · have codes : c.toNat ≠ d.toNat := fun equal => same (Char.toNat_inj.mp equal)
    rw [if_pos same]
    apply AgreesWith.decided
    · intro equal
      cases equal
      exact same rfl
    · omega
    · have rank : StringToken.rank (.character c) < StringToken.rank (.character d) ↔ c < d :=
        Sum.Lex.inr_lt_inr_iff
      have order : c < d ↔ c.toNat < d.toNat := .rfl
      rw [rank, order]
      constructor
      · intro below
        omega
      · intro below
        omega

lemma agrees_numbers {y : Rat} (apart : StandApart x y)
    (later : x = y -> AgreesWith value lhs rhs) :
    AgreesWith (if castToInt outside (x - y) ≠ 0 then castToInt outside (x - y) else value)
      (.number x :: lhs) (.number y :: rhs) := by
  have decided := apart.castToInt outside
  by_cases same : x = y
  · rw [if_neg (not_not.mpr (decided.1.mpr same)), same]
    exact (later same).cons (.number y)
  · have differ : castToInt outside (x - y) ≠ 0 := fun zero => same (decided.1.mp zero)
    rw [if_pos differ]
    apply AgreesWith.decided
    · intro equal
      cases equal
      exact same rfl
    · exact differ
    · rw [decided.2]
      exact Sum.Lex.inl_lt_inl_iff.symm

lemma Apart.agrees (apart : Apart lhs rhs) :
    AgreesWith (compareTokens outside lhs rhs) lhs rhs := by
  induction lhs generalizing rhs with
  | nil =>
    cases rhs with
    | nil => exact agrees_nil
    | cons second rhs => exact agrees_shorter second rhs
  | cons first lhs ih =>
    cases rhs with
    | nil =>
      cases first with
      | number x => exact agrees_longer _ lhs
      | character c => exact agrees_longer _ lhs
    | cons second rhs =>
      cases first with
      | number x =>
        cases second with
        | number y => exact agrees_numbers outside apart.1 fun same => ih (apart.2 same)
        | character d =>
          apply AgreesWith.decided
          · simp
          · exact Int.neg_ne_zero.mpr one_ne_zero
          · exact ⟨fun _ => Sum.Lex.inl_lt_inr x d, fun _ => neg_one_lt_zero⟩
      | character c =>
        cases second with
        | number y =>
          apply AgreesWith.decided
          · simp
          · exact one_ne_zero
          · exact ⟨fun impossible => absurd impossible (by simp [compareTokens]),
              fun impossible => absurd impossible Sum.Lex.not_inr_lt_inl⟩
        | character d => exact agrees_characters fun same => ih (apart same)

/-! ## The laws -/

/-- The laws of a total preorder on some texts, in which only texts with the same tokens are
equal. -/
structure IsFuzzyOrder (compare : Text -> Text -> Evaluation Int) (texts : Set Text) : Prop where
  total : ∀ a b, a ∈ texts -> b ∈ texts -> ∃ value, compare a b = .ok value
  antisymmetric : ∀ a b ab ba, a ∈ texts -> b ∈ texts -> compare a b = .ok ab ->
    compare b a = .ok ba -> ab.sign = -ba.sign
  transitive : ∀ a b c ab bc ac, a ∈ texts -> b ∈ texts -> c ∈ texts ->
    compare a b = .ok ab -> compare b c = .ok bc -> compare a c = .ok ac ->
    ab <= 0 -> bc <= 0 -> ac <= 0
  equal : ∀ a b, a ∈ texts -> b ∈ texts -> compare a b = .ok 0 -> tokens a = tokens b

/-- No two texts differ first in numbers whose difference is lost. -/
def TextsApart (texts : Set Text) : Prop :=
  ∀ a b, a ∈ texts -> b ∈ texts -> Apart (tokens a) (tokens b)

def HoldsNumbers (texts : Set Text) : Prop :=
  ∀ t x, t ∈ texts -> .number x ∈ tokens t -> ∃ own ∈ texts, tokens own = [.number x]

lemma AgreesWith.nonpos_iff
    (agrees : AgreesWith value lhs rhs) : value <= 0 ↔ placeOf lhs <= placeOf rhs := by
  have injective : placeOf lhs = placeOf rhs ↔ lhs = rhs := by
    constructor
    · intro same
      have ranks := append_cancel_right same
      have embedded : Function.Injective fun token : StringToken => (token.rank : Place) := by
        intro first second equal
        exact StringToken.rank_injective (WithTop.coe_injective equal)
      exact map_injective_iff.mpr embedded ranks
    · intro same
      rw [same]
  rw [le_iff_lt_or_eq, le_iff_lt_or_eq, agrees.below, agrees.same, injective]

lemma TextsApart.isFuzzyOrder {texts : Set Text} (apart : TextsApart texts) (outside : Rat -> Int) :
    IsFuzzyOrder (fuzzyStringComparison (exactLibrary outside)) texts := by
  have agrees : ∀ a b value, a ∈ texts -> b ∈ texts ->
      fuzzyStringComparison (exactLibrary outside) a b = .ok value ->
      AgreesWith value (tokens a) (tokens b) := by
    intro a b value memberA memberB compared
    rw [fuzzyStringComparison_eq] at compared
    rw [<- Except.ok.inj compared]
    exact (apart a b memberA memberB).agrees outside
  constructor
  · intro a b _ _
    exact ⟨_, fuzzyStringComparison_eq outside a b⟩
  · intro a b ab ba memberA memberB forth back
    have forward := agrees a b ab memberA memberB forth
    have backward := agrees b a ba memberB memberA back
    rcases lt_trichotomy ab 0 with negative | zero | positive
    · have other : 0 < ba := by
        by_contra small
        have below := backward.nonpos_iff.mp (not_lt.mp small)
        exact absurd (forward.below.mp negative) (not_lt.mpr below)
      rw [Int.sign_eq_neg_one_of_neg negative, Int.sign_eq_one_of_pos other]
    · have other : ba = 0 := backward.same.mpr (forward.same.mp zero).symm
      rw [zero, other]
      rfl
    · have other : ba < 0 := by
        rw [backward.below]
        by_contra above
        have small := forward.nonpos_iff.mpr (not_lt.mp above)
        omega
      rw [Int.sign_eq_one_of_pos positive, Int.sign_eq_neg_one_of_neg other]
      rfl
  · intro a b c ab bc ac memberA memberB memberC first second third small later
    have forward := agrees a b ab memberA memberB first
    have onward := agrees b c bc memberB memberC second
    have across := agrees a c ac memberA memberC third
    rw [forward.nonpos_iff] at small
    rw [onward.nonpos_iff] at later
    rw [across.nonpos_iff]
    exact le_trans small later
  · intro a b memberA memberB compared
    exact (agrees a b 0 memberA memberB compared).same.mp rfl

/-- A lost difference is one of two numbers in the lists. -/
lemma exists_lost (lost : ¬ Apart lhs rhs) :
    ∃ x y, .number x ∈ lhs ∧ .number y ∈ rhs ∧ ¬ StandApart x y := by
  induction lhs generalizing rhs with
  | nil => exact absurd trivial lost
  | cons first lhs ih =>
    cases rhs with
    | nil => cases first <;> exact absurd trivial lost
    | cons second rhs =>
      cases first with
      | number x =>
        cases second with
        | number y =>
          by_cases apart : StandApart x y
          · have later : ¬ Apart lhs rhs := fun rest => lost ⟨apart, fun _ => rest⟩
            rcases ih later with ⟨u, v, inLhs, inRhs, close⟩
            exact ⟨u, v, .tail _ inLhs, .tail _ inRhs, close⟩
          · exact ⟨x, y, .head _, .head _, apart⟩
        | character d => exact absurd trivial lost
      | character c =>
        cases second with
        | number y => exact absurd trivial lost
        | character d =>
          have later : ¬ Apart lhs rhs := fun rest => lost fun _ => rest
          rcases ih later with ⟨u, v, inLhs, inRhs, close⟩
          exact ⟨u, v, .tail _ inLhs, .tail _ inRhs, close⟩

/-- Between numbers that do not stand apart, one comparison may find no difference. -/
lemma lost_equal {y : Rat} (lost : ¬ StandApart x y) :
    x ≠ y ∧ (castToInt (fun _ => 0) (x - y) = 0 ∨ castToInt (fun _ => 0) (y - x) = 0) := by
  have different : x ≠ y := fun same => lost (.inl same)
  refine ⟨different, ?_⟩
  have range := not_and_or.mp fun both => lost (.inr both)
  rcases range with small | large
  · left
    rw [castToInt, truncate_eq_zero (not_le.mp small)]
    rfl
  · have wide := not_lt.mp large
    rcases le_total 0 (x - y) with nonneg | negative
    · left
      rw [abs_of_nonneg nonneg] at wide
      have floor : (2 : Int) ^ 31 <= truncate (x - y) := by
        rw [truncate_nonneg nonneg]
        exact Int.le_floor.mpr (by exact_mod_cast wide)
      rw [castToInt, if_neg fun range => absurd range.2 (not_lt.mpr floor)]
    · right
      rw [abs_of_nonpos negative, neg_sub] at wide
      have floor : (2 : Int) ^ 31 <= truncate (y - x) := by
        rw [truncate_nonneg (by linarith)]
        exact Int.le_floor.mpr (by exact_mod_cast wide)
      rw [castToInt, if_neg fun range => absurd range.2 (not_lt.mpr floor)]

/-! ## Numbers as texts -/

/-- A literal with all its parts. -/
def writeLiteral (whole fraction : Text) (sign : Char) (exponent : Text) : Text :=
  whole ++ '.' :: fraction ++ 'e' :: sign :: exponent

lemma takeWhile_digits (all : ∀ c ∈ digits, asciiIsDigit c = true)
    (stops : asciiIsDigit c = false) (rest : Text) :
    (digits ++ c :: rest).takeWhile asciiIsDigit = digits ∧
      (digits ++ c :: rest).dropWhile asciiIsDigit = c :: rest := by
  have stopped : ¬ asciiIsDigit c = true := by
    rw [stops]
    exact Bool.false_ne_true
  constructor
  · rw [takeWhile_append_of_pos all, takeWhile_cons_of_neg stopped, append_nil]
  · rw [dropWhile_append_of_pos all, dropWhile_cons_of_neg stopped]

lemma readExponentDigits_all (sign : Int) (whole : Text)
    (all : ∀ c ∈ digits, asciiIsDigit c = true) (present : digits ≠ []) :
    readExponentDigits sign digits whole = (sign * naturalOf digits, []) := by
  have taken : digits.takeWhile asciiIsDigit = digits := takeWhile_eq_self_iff.mpr all
  have left : digits.dropWhile asciiIsDigit = [] := dropWhile_eq_nil_iff.mpr all
  rw [readExponentDigits, taken, left, if_neg]
  rw [List.isEmpty_iff]
  exact present

/-- An exponent of the value that is read can be written with a sign. -/
def Writes (value : Int) : Prop :=
  ∃ sign digits, readExponent ('e' :: sign :: digits) = (value, [])

lemma writes_zero : Writes 0 := ⟨'+', text "0", by decide⟩

lemma writes_readExponentDigits {sign : Char} {factor : Int}
    (signed : (sign = '-' ∧ factor = -1) ∨ (sign = '+' ∧ factor = 1)) (digits whole : Text) :
    Writes (readExponentDigits factor digits whole).1 := by
  unfold readExponentDigits
  split
  · exact writes_zero
  · rename_i present
    have all : ∀ c ∈ digits.takeWhile asciiIsDigit, asciiIsDigit c = true :=
      fun _ member => mem_takeWhile_imp member
    have written := readExponentDigits_all factor ('e' :: sign :: digits.takeWhile asciiIsDigit)
      all fun empty => present (List.isEmpty_iff.mpr empty)
    refine ⟨sign, digits.takeWhile asciiIsDigit, ?_⟩
    rcases signed with ⟨isMinus, isFactor⟩ | ⟨isPlus, isFactor⟩
    · rw [isMinus, isFactor] at written ⊢
      exact written
    · rw [isPlus, isFactor] at written ⊢
      exact written

lemma writes_readExponent : Writes (readExponent t).1 := by
  unfold readExponent
  split
  · split
    · split
      · exact writes_readExponentDigits (.inl ⟨rfl, rfl⟩) _ _
      · exact writes_readExponentDigits (.inr ⟨rfl, rfl⟩) _ _
      · exact writes_readExponentDigits (.inr ⟨rfl, rfl⟩) _ _
    · exact writes_zero
  · exact writes_zero

lemma readFraction_digits : ∀ c ∈ (readFraction t).1, asciiIsDigit c = true := by
  unfold readFraction
  split
  · intro c member
    exact mem_takeWhile_imp member
  · exact forall_mem_nil _

lemma decimalLiteral_written {whole fraction : Text} {sign : Char} {exponent : Int}
    (wholeDigits : ∀ c ∈ whole, asciiIsDigit c = true)
    (fractionDigits : ∀ c ∈ fraction, asciiIsDigit c = true)
    (written : readExponent ('e' :: sign :: digits) = (exponent, [])) :
    decimalLiteral (whole ++ '.' :: (fraction ++ 'e' :: sign :: digits)) =
      ((naturalOf (whole ++ fraction) : Rat) / 10 ^ fraction.length * 10 ^ exponent, []) := by
  have dot : asciiIsDigit '.' = false := by decide
  have mark : asciiIsDigit 'e' = false := by decide
  have wholeRead := takeWhile_digits wholeDigits dot (fraction ++ 'e' :: sign :: digits)
  have fractionRead := takeWhile_digits fractionDigits mark (sign :: digits)
  have split : readFraction ('.' :: (fraction ++ 'e' :: sign :: digits)) =
      (fraction, 'e' :: sign :: digits) := by
    rw [readFraction, fractionRead.1, fractionRead.2]
  simp only [decimalLiteral, wholeRead.1, wholeRead.2, split, written]

lemma exists_own (digit : asciiIsDigit c = true) (rest : Text) :
    ∃ own, tokens own = [.number (decimalLiteral (c :: rest)).1] := by
  have fractionDigits := readFraction_digits ((c :: rest).dropWhile asciiIsDigit)
  have wholeDigits : ∀ d ∈ (c :: rest).takeWhile asciiIsDigit, asciiIsDigit d = true :=
    fun _ member => mem_takeWhile_imp member
  rcases writes_readExponent (readFraction ((c :: rest).dropWhile asciiIsDigit)).2 with
    ⟨sign, digits, written⟩
  have literal := decimalLiteral_written wholeDigits fractionDigits written
  have begins : (c :: rest).takeWhile asciiIsDigit = c :: rest.takeWhile asciiIsDigit :=
    takeWhile_cons_of_pos digit
  refine ⟨(c :: rest).takeWhile asciiIsDigit ++
    '.' :: ((readFraction ((c :: rest).dropWhile asciiIsDigit)).1 ++ 'e' :: sign :: digits), ?_⟩
  change decimalLiteral _ = ((decimalLiteral (c :: rest)).1, []) at literal
  rw [begins, cons_append] at literal ⊢
  rw [tokens_digit digit, literal, tokens_nil]

def textsOver (numbers : Set Rat) : Set Text := {t | ∀ x, .number x ∈ tokens t -> x ∈ numbers}

lemma exists_own_of_mem {t : Text} (member : .number x ∈ tokens t) :
    ∃ own, tokens own = [.number x] := by
  induction length : t.length using Nat.strong_induction_on generalizing t with
  | h n ih =>
    subst length
    cases t with
    | nil =>
      rw [tokens_nil] at member
      cases member
    | cons c rest =>
      cases digit : asciiIsDigit c with
      | true =>
        rw [tokens_digit digit] at member
        rcases mem_cons.mp member with isFirst | isLater
        · rw [StringToken.number.inj isFirst]
          exact exists_own digit rest
        · exact ih _ (decimalLiteral_length_lt digit rest) isLater rfl
      | false =>
        rw [tokens_other digit] at member
        rcases mem_cons.mp member with isFirst | isLater
        · cases isFirst
        · exact ih _ (Nat.lt_succ_self rest.length) isLater rfl

lemma holdsNumbers_textsOver (numbers : Set Rat) : HoldsNumbers (textsOver numbers) := by
  intro t x inside member
  rcases exists_own_of_mem member with ⟨own, read⟩
  refine ⟨own, ?_, read⟩
  intro y inOwn
  rw [read] at inOwn
  rw [StringToken.number.inj (mem_singleton.mp inOwn)]
  exact inside x member

lemma apart_of_numbers (numbers : ∀ x y, .number x ∈ lhs -> .number y ∈ rhs -> StandApart x y) :
    Apart lhs rhs := by
  by_contra lost
  rcases exists_lost lost with ⟨x, y, inLhs, inRhs, close⟩
  exact close (numbers x y inLhs inRhs)

end Ecclesia.Predicates
