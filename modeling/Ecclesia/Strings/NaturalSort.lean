import Ecclesia.Json.PropertyPath
import Mathlib.Data.List.Lex
import Mathlib.Data.List.TakeWhile

namespace Ecclesia.Strings

open Absl List
open PathUtil (simpleAtoi32_digits)

/-!
# Natural order

Texts are compared character by character, and runs of digits as numbers.  Among runs of the same
number a longer one, which has more zeros in front, is less.  The result is an `int`, in which the
difference of the lengths need not fit.

The definitions follow `natural_sort.cc`.
-/

/-- The value of a character as a signed `char`. -/
def signedChar (c : Char) : Int :=
  if c.toNat < 128 then c.toNat else c.toNat - 256

/-- The difference of two sizes as an `int`. -/
def sizeDifference (first second : Nat) : Int :=
  Int.bmod (first - second) (2 ^ 32)

/-- `NaturalSortCmp` from an index on.  There is no result if a number does not fit. -/
def naturalSortCmp : Text -> Text -> Option Int
  | c :: lhs, d :: rhs =>
    if asciiIsDigit c = true ∧ asciiIsDigit d = true then
      let lhsRun := (c :: lhs).takeWhile asciiIsDigit
      let rhsRun := (d :: rhs).takeWhile asciiIsDigit
      match simpleAtoi32 lhsRun, simpleAtoi32 rhsRun with
      | some lhsNum, some rhsNum =>
        if lhsNum ≠ rhsNum then some (lhsNum - rhsNum)
        else if lhsRun.length ≠ rhsRun.length then
          some (sizeDifference rhsRun.length lhsRun.length)
        else naturalSortCmp (lhs.dropWhile asciiIsDigit) (rhs.dropWhile asciiIsDigit)
      | _, _ => none
    else if signedChar c < signedChar d then some (-1)
    else if signedChar d < signedChar c then some 1
    else naturalSortCmp lhs rhs
  | _ :: _, [] => some 1
  | [], _ :: _ => some (-1)
  | [], [] => some 0
termination_by lhs => lhs.length
decreasing_by
  · exact Nat.lt_succ_of_le (List.dropWhile_sublist _).length_le
  · exact Nat.lt_succ_self _

def naturalSortLessThan (lhs rhs : Text) : Bool := (naturalSortCmp lhs rhs).any (· < 0)

def number (run : Text) : Nat :=
  run.foldl (fun value c => 10 * value + digitValue c) 0

def digitRuns (t : Text) : List Text :=
  t.splitOnP fun c => !asciiIsDigit c

/-- The characters are bytes, and the runs of digits fit in an `int`. -/
structure RunsFit (t : Text) : Prop where
  bytes : ∀ c ∈ t, c.toNat < 256
  fit : ∀ run ∈ digitRuns t, number run < 2 ^ 31

variable {c : Char}

lemma digitRuns_cons (notDigit : asciiIsDigit c = false) (rest : Text) :
    digitRuns (c :: rest) = [] :: digitRuns rest := by
  have none_ : ∀ d ∈ ([] : Text), (!asciiIsDigit d) = false := forall_mem_nil _
  exact splitOnP_append_cons_of_forall_mem none_ c (by rw [notDigit]; rfl) rest

lemma digit_iff (c : Char) : asciiIsDigit c = true ↔ 48 <= c.toNat ∧ c.toNat <= 57 := by
  rw [asciiIsDigit, Bool.and_eq_true, decide_eq_true_eq, decide_eq_true_eq]
  rfl

lemma mem_digitRuns (t : Text) : t.takeWhile asciiIsDigit ∈ digitRuns t ∧
    ∀ run ∈ digitRuns (t.dropWhile asciiIsDigit), run = [] ∨ run ∈ digitRuns t := by
  have digits : ∀ c ∈ t.takeWhile asciiIsDigit, (!asciiIsDigit c) = false := by
    intro c member
    rw [mem_takeWhile_imp member]
    rfl
  have whole : t.takeWhile asciiIsDigit ++ t.dropWhile asciiIsDigit = t :=
    takeWhile_append_dropWhile
  cases behind : t.dropWhile asciiIsDigit with
  | nil =>
    rw [behind, append_nil] at whole
    rw [whole] at digits ⊢
    have runs : digitRuns t = [t] := splitOnP_eq_singleton digits
    exact ⟨runs ▸ mem_singleton_self t, fun run member => .inl (mem_singleton.mp member)⟩
  | cons c rest =>
    have notDigit : asciiIsDigit c = false := by
      have first := head?_dropWhile_not asciiIsDigit t
      rw [behind] at first
      exact first
    have runs : digitRuns t = t.takeWhile asciiIsDigit :: digitRuns rest := by
      conv => lhs; rw [<- whole, behind]
      exact splitOnP_append_cons_of_forall_mem digits c (by rw [notDigit]; rfl) rest
    refine ⟨runs ▸ (.head _), fun run member => ?_⟩
    rw [digitRuns_cons notDigit rest] at member
    exact (mem_cons.mp member).imp_right fun inRest => runs ▸ .tail _ inRest

variable {rest : Text}

lemma RunsFit.of_cons (fits : RunsFit (c :: rest))
    (notDigit : asciiIsDigit c = false) : RunsFit rest := by
  refine ⟨fun d member => fits.bytes d (mem_cons_of_mem c member), fun run member => ?_⟩
  exact fits.fit run (digitRuns_cons notDigit rest ▸ mem_cons_of_mem [] member)

lemma RunsFit.run {t : Text} (fits : RunsFit t) :
    number (t.takeWhile asciiIsDigit) < 2 ^ 31 ∧ RunsFit (t.dropWhile asciiIsDigit) := by
  refine ⟨fits.fit _ (mem_digitRuns t).1, ?_, fun run member => ?_⟩
  · exact fun c member => fits.bytes c ((dropWhile_sublist _).subset member)
  · rcases (mem_digitRuns t).2 run member with rfl | inRuns
    · decide
    · exact fits.fit run inRuns

def ShortRuns (limit : Nat) (t : Text) : Prop :=
  ∀ run ∈ digitRuns t, run.length <= limit

variable {limit : Nat}

lemma ShortRuns.of_cons (short : ShortRuns limit (c :: rest)) (notDigit : asciiIsDigit c = false) :
    ShortRuns limit rest := by
  intro run member
  exact short run (digitRuns_cons notDigit rest ▸ mem_cons_of_mem [] member)

lemma ShortRuns.run {t : Text} (short : ShortRuns limit t) :
    (t.takeWhile asciiIsDigit).length <= limit ∧ ShortRuns limit (t.dropWhile asciiIsDigit) := by
  refine ⟨short _ (mem_digitRuns t).1, fun run member => ?_⟩
  rcases (mem_digitRuns t).2 run member with rfl | inRuns
  · exact Nat.zero_le limit
  · exact short run inRuns

lemma digitValue_inj {d : Char} (digitC : asciiIsDigit c = true)
    (digitD : asciiIsDigit d = true) (same : digitValue c = digitValue d) : c = d := by
  have boundsC := (digit_iff c).mp digitC
  have boundsD := (digit_iff d).mp digitD
  have zero : '0'.toNat = 48 := rfl
  rw [digitValue, digitValue] at same
  have values : c.toNat = d.toNat := by omega
  exact Char.toNat_inj.mp values

lemma digitValue_lt (digit : asciiIsDigit c = true) : digitValue c < 10 := by
  have bounds := (digit_iff c).mp digit
  have zero : '0'.toNat = 48 := rfl
  rw [digitValue]
  omega

lemma number_inj {first second : Text} (digitsFirst : ∀ c ∈ first, asciiIsDigit c = true)
    (digitsSecond : ∀ c ∈ second, asciiIsDigit c = true) (long : first.length = second.length)
    (same : number first = number second) : first = second := by
  have general : ∀ (first second : Text) (v w : Nat), (∀ c ∈ first, asciiIsDigit c = true) ->
      (∀ c ∈ second, asciiIsDigit c = true) -> first.length = second.length ->
      first.foldl (fun value c => 10 * value + digitValue c) v =
        second.foldl (fun value c => 10 * value + digitValue c) w -> v = w ∧ first = second := by
    intro first
    induction first with
    | nil =>
      intro second v w _ _ long same
      rw [eq_nil_of_length_eq_zero long.symm] at same ⊢
      exact ⟨same, rfl⟩
    | cons c rest ih =>
      intro second v w digitsFirst digitsSecond long same
      cases second with
      | nil => cases long
      | cons d others =>
        have digitC := digitsFirst c (.head _)
        have digitD := digitsSecond d (.head _)
        rcases ih others _ _ (fun e member => digitsFirst e (mem_cons_of_mem c member))
          (fun e member => digitsSecond e (mem_cons_of_mem d member))
          (Nat.succ.inj long) same with ⟨values, rests⟩
        have sum : 10 * v + digitValue c = 10 * w + digitValue d := values
        have boundC := digitValue_lt digitC
        have boundD := digitValue_lt digitD
        have last : digitValue c = digitValue d := by omega
        exact ⟨by omega, by rw [digitValue_inj digitC digitD last, rests]⟩
  exact (general first second 0 0 digitsFirst digitsSecond long same).2

lemma simpleAtoi32_run {t : Text} (fits : RunsFit t) (starts : t = c :: rest)
    (digit : asciiIsDigit c = true) :
    simpleAtoi32 (t.takeWhile asciiIsDigit) = some (number (t.takeWhile asciiIsDigit) : Int) := by
  have digits : (t.takeWhile asciiIsDigit).all asciiIsDigit = true := all_takeWhile
  have present : (t.takeWhile asciiIsDigit).isEmpty = false := by
    rw [starts, takeWhile_cons_of_pos digit]
    rfl
  rw [simpleAtoi32_digits digits, simpleAtoi32.bounded, parseDigits, present, digits]
  exact if_pos fits.run.1

def keys : Text -> List Int
  | [] => []
  | c :: rest =>
    if asciiIsDigit c then
      48 :: (number ((c :: rest).takeWhile asciiIsDigit) : Int) ::
        -(((c :: rest).takeWhile asciiIsDigit).length : Int) :: keys (rest.dropWhile asciiIsDigit)
    else signedChar c :: keys rest
termination_by t => t.length
decreasing_by
  · exact Nat.lt_succ_of_le (List.dropWhile_sublist _).length_le
  · exact Nat.lt_succ_self _

/-- What the sign of a comparison says. -/
structure Agrees (lhs rhs : Text) (result : Int) : Prop where
  less : result < 0 ↔ keys lhs < keys rhs
  same : result = 0 ↔ keys lhs = keys rhs

variable {result : Int}

lemma Agrees.of_lt {lhs rhs : Text} (negative : result < 0)
    (less : keys lhs < keys rhs) : Agrees lhs rhs result where
  less := iff_of_true negative less
  same := iff_of_false (Int.ne_of_lt negative) (ne_of_lt less)

lemma Agrees.of_gt {lhs rhs : Text} (positive : 0 < result)
    (greater : keys rhs < keys lhs) : Agrees lhs rhs result where
  less := iff_of_false (Int.not_lt.mpr (Int.le_of_lt positive)) (lt_asymm greater)
  same := iff_of_false (Int.ne_of_gt positive) (ne_of_gt greater)

lemma append_lt_append (front first second : List Int) :
    front ++ first < front ++ second ↔ first < second := by
  induction front with
  | nil => rfl
  | cons key others ih =>
    rw [cons_append, cons_append, cons_lt_cons_iff, ih]
    exact ⟨fun either => either.elim (fun less => absurd less (lt_irrefl key)) And.right,
      fun less => .inr ⟨rfl, less⟩⟩

/-- Keys that begin in the same way are compared by what is behind. -/
lemma Agrees.behind {lhs rhs lhsRest rhsRest : Text} (front : List Int)
    (agrees : Agrees lhsRest rhsRest result) (isLhs : keys lhs = front ++ keys lhsRest)
    (isRhs : keys rhs = front ++ keys rhsRest) : Agrees lhs rhs result where
  less := by rw [isLhs, isRhs, append_lt_append, agrees.less]
  same := by rw [isLhs, isRhs, append_right_inj, agrees.same]

def firstKey (c : Char) : Int :=
  if asciiIsDigit c then 48 else signedChar c

lemma keys_cons (c : Char) (rest : Text) : ∃ behind, keys (c :: rest) = firstKey c :: behind := by
  rw [keys, firstKey]
  split
  · exact ⟨_, rfl⟩
  · exact ⟨_, rfl⟩

lemma signedChar_inj {d : Char} (byteC : c.toNat < 256) (byteD : d.toNat < 256)
    (same : signedChar c = signedChar d) : c = d := by
  have values : c.toNat = d.toNat := by
    rw [signedChar, signedChar] at same
    split at same <;> split at same <;> omega
  exact Char.toNat_inj.mp values

lemma firstKey_lt {d : Char} (byteC : c.toNat < 256) (byteD : d.toNat < 256)
    (notBoth : ¬ (asciiIsDigit c = true ∧ asciiIsDigit d = true))
    (less : signedChar c < signedChar d) : firstKey c < firstKey d := by
  rw [digit_iff, digit_iff] at notBoth
  rw [signedChar, signedChar] at less
  simp only [firstKey, digit_iff, signedChar]
  split <;> split <;> split at less <;> split at less <;> omega

lemma keys_lt_of_firstKey {d : Char} {lhs rhs : Text} (less : firstKey c < firstKey d) :
    keys (c :: lhs) < keys (d :: rhs) := by
  rcases keys_cons c lhs with ⟨_, isLhs⟩
  rcases keys_cons d rhs with ⟨_, isRhs⟩
  rw [isLhs, isRhs]
  exact cons_lt_cons_iff.mpr (.inl less)

lemma keys_run (digit : asciiIsDigit c = true) :
    keys (c :: rest) = [48, (number ((c :: rest).takeWhile asciiIsDigit) : Int),
      -(((c :: rest).takeWhile asciiIsDigit).length : Int)] ++ keys (rest.dropWhile asciiIsDigit) := by
  rw [keys, if_pos digit]
  rfl

lemma sizeDifference_eq {first second : Nat} (positiveFirst : 0 < first)
    (positiveSecond : 0 < second) (shortFirst : first <= 2 ^ 31) (shortSecond : second <= 2 ^ 31) :
    sizeDifference first second = first - second := by
  exact Int.bmod_eq_of_le (by omega) (by omega)

lemma run_pos (digit : asciiIsDigit c = true) :
    0 < ((c :: rest).takeWhile asciiIsDigit).length := by
  rw [takeWhile_cons_of_pos digit]
  exact Nat.succ_pos _

/-- The comparison agrees with the order of the keys, up to runs of `2 ^ 31` digits. -/
lemma agrees {lhs rhs : Text} (fitsLhs : RunsFit lhs) (fitsRhs : RunsFit rhs)
    (shortLhs : ShortRuns (2 ^ 31) lhs) (shortRhs : ShortRuns (2 ^ 31) rhs) :
    ∃ result, naturalSortCmp lhs rhs = some result ∧ Agrees lhs rhs result := by
  fun_induction naturalSortCmp lhs rhs with
  | case1 c lhs d rhs both lhsRun rhsRun lhsNum rhsNum readRhs readLhs differ =>
    cases readLhs.symm.trans (simpleAtoi32_run fitsLhs rfl both.1)
    cases readRhs.symm.trans (simpleAtoi32_run fitsRhs rfl both.2)
    have less {lhs rhs : Text} {c d : Char} (digitC : asciiIsDigit c = true)
        (digitD : asciiIsDigit d = true)
        (below : (number ((c :: lhs).takeWhile asciiIsDigit) : Int) <
          number ((d :: rhs).takeWhile asciiIsDigit)) : keys (c :: lhs) < keys (d :: rhs) := by
      rw [keys_run digitC, keys_run digitD]
      exact cons_lt_cons_iff.mpr (.inr ⟨rfl, cons_lt_cons_iff.mpr (.inl below)⟩)
    rcases lt_or_gt_of_ne differ with below | above
    · exact ⟨_, rfl, .of_lt (Int.sub_neg_of_lt below) (less both.1 both.2 below)⟩
    · exact ⟨_, rfl, .of_gt (Int.sub_pos_of_lt above) (less both.2 both.1 above)⟩
  | case2 c lhs d rhs both lhsRun rhsRun lhsNum rhsNum readRhs readLhs same longer =>
    cases readLhs.symm.trans (simpleAtoi32_run fitsLhs rfl both.1)
    cases readRhs.symm.trans (simpleAtoi32_run fitsRhs rfl both.2)
    have numbers := not_not.mp same
    have less {lhs rhs : Text} {c d : Char} (digitC : asciiIsDigit c = true)
        (digitD : asciiIsDigit d = true)
        (numbers : (number ((c :: lhs).takeWhile asciiIsDigit) : Int) =
          number ((d :: rhs).takeWhile asciiIsDigit))
        (shorter : ((d :: rhs).takeWhile asciiIsDigit).length <
          ((c :: lhs).takeWhile asciiIsDigit).length) : keys (c :: lhs) < keys (d :: rhs) := by
      rw [keys_run digitC, keys_run digitD, numbers]
      refine cons_lt_cons_iff.mpr (.inr ⟨rfl, cons_lt_cons_iff.mpr (.inr ⟨rfl, ?_⟩)⟩)
      exact cons_lt_cons_iff.mpr (.inl (by omega))
    have differs : ((c :: lhs).takeWhile asciiIsDigit).length ≠
        ((d :: rhs).takeWhile asciiIsDigit).length := longer
    refine ⟨_, rfl, ?_⟩
    rw [sizeDifference_eq (run_pos both.2) (run_pos both.1) shortRhs.run.1 shortLhs.run.1]
    rcases Nat.lt_or_gt_of_ne differs with shorter | longer
    · exact .of_gt (by omega) (less both.2 both.1 numbers.symm shorter)
    · exact .of_lt (by omega) (less both.1 both.2 numbers longer)
  | case3 c lhs d rhs both lhsRun rhsRun lhsNum rhsNum readRhs readLhs same asLong ih =>
    cases readLhs.symm.trans (simpleAtoi32_run fitsLhs rfl both.1)
    cases readRhs.symm.trans (simpleAtoi32_run fitsRhs rfl both.2)
    have isLhs := @keys_run c lhs both.1
    have isRhs := @keys_run d rhs both.2
    have behind (c : Char) (rest : Text) (digit : asciiIsDigit c = true) :
        (c :: rest).dropWhile asciiIsDigit = rest.dropWhile asciiIsDigit :=
      dropWhile_cons_of_pos digit
    rcases ih (behind c lhs both.1 ▸ fitsLhs.run.2) (behind d rhs both.2 ▸ fitsRhs.run.2)
      (behind c lhs both.1 ▸ shortLhs.run.2) (behind d rhs both.2 ▸ shortRhs.run.2)
        with ⟨result, compared, agrees⟩
    have numbers : (number ((c :: lhs).takeWhile asciiIsDigit) : Int) =
        number ((d :: rhs).takeWhile asciiIsDigit) := not_not.mp same
    have lengths : ((c :: lhs).takeWhile asciiIsDigit).length =
        ((d :: rhs).takeWhile asciiIsDigit).length := not_not.mp asLong
    rw [<- numbers, <- lengths] at isRhs
    exact ⟨result, compared, agrees.behind _ isLhs isRhs⟩
  | case4 c lhs d rhs both lhsRun rhsRun unread =>
    exact absurd (simpleAtoi32_run fitsRhs rfl both.2)
      (unread _ _ (simpleAtoi32_run fitsLhs rfl both.1))
  | case5 c lhs d rhs notBoth less =>
    have byteC := fitsLhs.bytes c (.head _)
    have byteD := fitsRhs.bytes d (.head _)
    exact ⟨-1, rfl, .of_lt (by decide) (keys_lt_of_firstKey (firstKey_lt byteC byteD notBoth less))⟩
  | case6 c lhs d rhs notBoth _ greater =>
    have byteC := fitsLhs.bytes c (.head _)
    have byteD := fitsRhs.bytes d (.head _)
    exact ⟨1, rfl, .of_gt (by decide)
      (keys_lt_of_firstKey (firstKey_lt byteD byteC (fun both => notBoth both.symm) greater))⟩
  | case7 c lhs d rhs notBoth notLess notGreater ih =>
    have same : c = d := signedChar_inj (fitsLhs.bytes c (.head _))
      (fitsRhs.bytes d (.head _)) (by omega)
    subst same
    have notDigit : asciiIsDigit c = false :=
      Bool.eq_false_of_not_eq_true fun digit => notBoth ⟨digit, digit⟩
    have key (rest : Text) : keys (c :: rest) = [signedChar c] ++ keys rest := by
      rw [keys, notDigit]
      rfl
    rcases ih (fitsLhs.of_cons notDigit) (fitsRhs.of_cons notDigit) (shortLhs.of_cons notDigit)
      (shortRhs.of_cons notDigit) with ⟨result, compared, agrees⟩
    exact ⟨result, compared, agrees.behind [signedChar c] (key lhs) (key rhs)⟩
  | case8 c rest =>
    rcases keys_cons c rest with ⟨_, isLhs⟩
    exact ⟨1, rfl, .of_gt (by decide) (isLhs ▸ by rw [keys]; exact nil_lt_cons _ _)⟩
  | case9 d rest =>
    rcases keys_cons d rest with ⟨_, isRhs⟩
    exact ⟨-1, rfl, .of_lt (by decide) (isRhs ▸ by rw [keys]; exact nil_lt_cons _ _)⟩
  | case10 => exact ⟨0, rfl, ⟨iff_of_false (by decide) (lt_irrefl _), iff_of_true rfl rfl⟩⟩

lemma firstKey_inj {d : Char} (byteC : c.toNat < 256) (byteD : d.toNat < 256)
    (same : firstKey c = firstKey d) :
    (asciiIsDigit c = true ∧ asciiIsDigit d = true) ∨ (asciiIsDigit c = false ∧ c = d) := by
  by_cases digitC : asciiIsDigit c = true
  · refine .inl ⟨digitC, ?_⟩
    by_contra digitD
    rw [firstKey, firstKey, if_pos digitC, if_neg digitD, signedChar] at same
    rw [digit_iff] at digitD
    split at same <;> omega
  · by_cases digitD : asciiIsDigit d = true
    · rw [firstKey, firstKey, if_neg digitC, signedChar] at same
      rw [digit_iff] at digitC
      split at same <;> omega
    · rw [firstKey, firstKey, if_neg digitC, if_neg digitD] at same
      exact .inr ⟨Bool.eq_false_of_not_eq_true digitC, signedChar_inj byteC byteD same⟩

lemma keys_inj {lhs rhs : Text} (bytesLhs : ∀ c ∈ lhs, c.toNat < 256)
    (bytesRhs : ∀ c ∈ rhs, c.toNat < 256) (same : keys lhs = keys rhs) : lhs = rhs := by
  induction long : lhs.length using Nat.strong_induction_on generalizing lhs rhs with
  | h length ih =>
    cases lhs with
    | nil =>
      cases rhs with
      | nil => rfl
      | cons d others =>
        rcases keys_cons d others with ⟨_, isRhs⟩
        rw [isRhs, keys] at same
        cases same
    | cons c rest =>
      rcases keys_cons c rest with ⟨_, isLhs⟩
      cases rhs with
      | nil =>
        rw [isLhs, keys] at same
        cases same
      | cons d others =>
        rcases keys_cons d others with ⟨_, isRhs⟩
        have first : firstKey c = firstKey d := by
          rw [isLhs, isRhs] at same
          exact (cons.inj same).1
        have laterC : ∀ e ∈ rest, e.toNat < 256 :=
          fun e member => bytesLhs e (mem_cons_of_mem c member)
        have laterD : ∀ e ∈ others, e.toNat < 256 :=
          fun e member => bytesRhs e (mem_cons_of_mem d member)
        rcases firstKey_inj (bytesLhs c (.head _)) (bytesRhs d (.head _))
          first with both | ⟨notDigit, rfl⟩
        · rw [keys_run both.1, keys_run both.2] at same
          have parts := cons.inj (cons.inj same).2
          have behind := cons.inj parts.2
          have dropped : rest.dropWhile asciiIsDigit = others.dropWhile asciiIsDigit :=
            ih _ (by rw [<- long]; exact Nat.lt_succ_of_le (dropWhile_sublist _).length_le)
              (fun e member => laterC e ((dropWhile_sublist _).subset member))
              (fun e member => laterD e ((dropWhile_sublist _).subset member)) behind.2 rfl
          have runs := number_inj (fun e member => mem_takeWhile_imp member)
            (fun e member => mem_takeWhile_imp member)
            (Int.ofNat.inj (Int.neg_inj.mp behind.1)) (Int.ofNat.inj parts.1)
          rw [<- takeWhile_append_dropWhile (p := asciiIsDigit) (l := c :: rest),
            <- takeWhile_append_dropWhile (p := asciiIsDigit) (l := d :: others), runs,
            dropWhile_cons_of_pos both.1, dropWhile_cons_of_pos both.2, dropped]
        · have key (rest : Text) : keys (c :: rest) = signedChar c :: keys rest := by
            rw [keys, notDigit]
            rfl
          rw [key, key] at same
          rw [ih rest.length (by rw [<- long]; exact Nat.lt_succ_self _) laterC laterD
            (cons.inj same).2 rfl]

/-- What sorting and ordered containers need of a comparison. -/
structure TotalOrder (domain : Text -> Prop) : Prop where
  compared : ∀ a b, domain a -> domain b -> ∃ result, naturalSortCmp a b = some result
  opposite : ∀ a b first second, domain a -> domain b -> naturalSortCmp a b = some first ->
    naturalSortCmp b a = some second -> first.sign = -second.sign
  transitive : ∀ a b c, domain a -> domain b -> domain c -> naturalSortLessThan a b = true ->
    naturalSortLessThan b c = true -> naturalSortLessThan a c = true
  zero : ∀ a b, domain a -> domain b -> (naturalSortCmp a b = some 0 ↔ a = b)

lemma totalOrder_of_short {domain : Text -> Prop} (fit : ∀ t, domain t -> RunsFit t)
    (short : ∀ t, domain t -> ShortRuns (2 ^ 31) t) : TotalOrder domain := by
  have known {a b : Text} (inA : domain a) (inB : domain b) {result : Int}
      (compared : naturalSortCmp a b = some result) : Agrees a b result := by
    rcases agrees (fit a inA) (fit b inB) (short a inA) (short b inB) with ⟨_, same, agrees⟩
    exact Option.some.inj (same.symm.trans compared) ▸ agrees
  have less {a b : Text} (inA : domain a) (inB : domain b) :
      naturalSortLessThan a b = true ↔ keys a < keys b := by
    rcases agrees (fit a inA) (fit b inB) (short a inA) (short b inB) with ⟨_, same, agrees⟩
    rw [naturalSortLessThan, same, Option.any_some, decide_eq_true_iff, agrees.less]
  constructor
  case compared =>
    intro a b inA inB
    rcases agrees (fit a inA) (fit b inB) (short a inA) (short b inB) with ⟨result, same, -⟩
    exact ⟨result, same⟩
  case opposite =>
    intro a b first second inA inB forward backward
    have there := known inA inB forward
    have back := known inB inA backward
    rcases lt_trichotomy (keys a) (keys b) with below | same | above
    · have negative := there.less.mpr below
      have positive : 0 < second := by
        have notLess := mt back.less.mp (lt_asymm below)
        have notSame := mt back.same.mp (ne_of_gt below)
        omega
      rw [Int.sign_eq_neg_one_of_neg negative, Int.sign_eq_one_of_pos positive]
    · rw [there.same.mpr same, back.same.mpr same.symm]
      rfl
    · have negative := back.less.mpr above
      have positive : 0 < first := by
        have notLess := mt there.less.mp (lt_asymm above)
        have notSame := mt there.same.mp (ne_of_gt above)
        omega
      rw [Int.sign_eq_one_of_pos positive, Int.sign_eq_neg_one_of_neg negative]
      rfl
  case transitive =>
    intro a b c inA inB inC first second
    exact (less inA inC).mpr (lt_trans ((less inA inB).mp first) ((less inB inC).mp second))
  case zero =>
    intro a b inA inB
    rcases agrees (fit a inA) (fit b inB) (short a inA) (short b inB) with ⟨result, same, agrees⟩
    rw [same, Option.some_inj, agrees.same]
    exact ⟨keys_inj (fit a inA).bytes (fit b inB).bytes, congrArg keys⟩

section

variable (n : Nat)

lemma zeros_digits : ∀ c ∈ replicate n '0', asciiIsDigit c = true := by
  intro c member
  rw [eq_of_mem_replicate member]
  decide

lemma zeros_number : number (replicate n '0') = 0 := by
  induction n with
  | zero => rfl
  | succ n ih => exact ih

lemma zeros_runs : digitRuns (replicate n '0') = [replicate n '0'] :=
  splitOnP_eq_singleton fun c member => by rw [zeros_digits n c member]; rfl

lemma zeros_fit : RunsFit (replicate n '0') := by
  refine ⟨fun c member => ?_, fun run member => ?_⟩
  · rw [eq_of_mem_replicate member]
    decide
  · rw [zeros_runs] at member
    rw [mem_singleton.mp member, zeros_number]
    decide

lemma zeros_short (short : n <= limit) : ShortRuns limit (replicate n '0') := by
  intro run member
  rw [zeros_runs] at member
  rwa [mem_singleton.mp member, length_replicate]

lemma zeros_run : (replicate n '0').takeWhile asciiIsDigit = replicate n '0' :=
  takeWhile_eq_self_iff.mpr (zeros_digits n)

lemma zeros_compared {m n : Nat} (differ : m ≠ n) :
    naturalSortCmp (replicate (m + 1) '0') (replicate (n + 1) '0') =
      some (sizeDifference (n + 1) (m + 1)) := by
  have read (k : Nat) : simpleAtoi32 (('0' :: replicate k '0').takeWhile asciiIsDigit) =
      some 0 := by
    rw [<- replicate_succ, simpleAtoi32_run (zeros_fit (k + 1)) replicate_succ (by decide),
      zeros_run, zeros_number]
    rfl
  have long (k : Nat) : (('0' :: replicate k '0').takeWhile asciiIsDigit).length = k + 1 := by
    rw [<- replicate_succ, zeros_run, length_replicate]
  have digits : asciiIsDigit '0' = true ∧ asciiIsDigit '0' = true := ⟨by decide, by decide⟩
  rw [replicate_succ, replicate_succ, naturalSortCmp]
  simp only [read, long]
  exact if_pos fun same => differ (Nat.succ.inj same)

end

/-- The difference of the lengths is the least `int`, both ways. -/
lemma zeros_less : naturalSortCmp (replicate (0 + 1) '0') (replicate (2 ^ 31 + 1) '0') =
      some (-2 ^ 31) ∧
    naturalSortCmp (replicate (2 ^ 31 + 1) '0') (replicate (0 + 1) '0') = some (-2 ^ 31) := by
  rw [zeros_compared (by decide), zeros_compared (by decide)]
  exact ⟨congrArg some (by decide), congrArg some (by decide)⟩

lemma not_totalOrder_of_zeros {domain : Text -> Prop} (one : domain (replicate (0 + 1) '0'))
    (many : domain (replicate (2 ^ 31 + 1) '0')) : ¬ TotalOrder domain := by
  intro order
  have signs := order.opposite _ _ _ _ one many zeros_less.1 zeros_less.2
  exact absurd signs (by decide)

/-- The comparison of the texts whose runs of digits have at most a length is a total order exactly
if differences of such lengths fit in an `int`. -/
theorem totalOrder_iff : ∀ limit : Nat,
    TotalOrder (fun t => RunsFit t ∧ ShortRuns limit t) <-> limit <= 2 ^ 31 := by
  intro limit
  constructor
  · intro order
    by_contra long
    exact not_totalOrder_of_zeros ⟨zeros_fit _, zeros_short _ (by omega)⟩
      ⟨zeros_fit _, zeros_short _ (by omega)⟩ order
  · intro short
    refine totalOrder_of_short (fun _ inDomain => inDomain.1) fun t inDomain run member => ?_
    exact Nat.le_trans (inDomain.2 run member) short

/-- With one zero and `2 ^ 31 + 1` of them, both are less than the other one. -/
theorem not_totalOrder : ¬ TotalOrder RunsFit := not_totalOrder_of_zeros (zeros_fit _) (zeros_fit _)

end Ecclesia.Strings
