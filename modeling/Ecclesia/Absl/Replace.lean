import Ecclesia.Absl.Strings
import Mathlib.Data.List.Infix

namespace Ecclesia.Absl

open List

/-!
# Replacing patterns in a text

What `absl::StrReplaceAll` does to a text, from the matches that it finds.
-/

lemma longestMatch_some {replacements : List (Text × Text)} {t : Text} {entry : Text × Text}
    (matched : longestMatch replacements t = some entry) :
    entry ∈ replacements ∧ entry.1 <+: t := by
  have general : ∀ (later : List (Text × Text)) (best : Option (Text × Text)),
      (∀ found, best = some found -> found ∈ replacements ∧ found.1 <+: t) ->
      (∀ candidate ∈ later, candidate ∈ replacements) ->
      ∀ found, later.foldl (fun best candidate =>
        if candidate.1.isPrefixOf t && best.all (fun found => found.1.length < candidate.1.length)
        then some candidate else best) best = some found ->
          found ∈ replacements ∧ found.1 <+: t := by
    intro later
    induction later with
    | nil => exact fun best known _ found isBest => known found isBest
    | cons candidate rest ih =>
      intro best known part found isFound
      rw [foldl_cons] at isFound
      refine ih _ ?_ (fun other member => part other (.tail _ member)) found isFound
      intro chosen isChosen
      split at isChosen
      next holds =>
        cases isChosen
        refine ⟨part candidate (.head _), ?_⟩
        exact List.isPrefixOf_iff_prefix.mp (Bool.and_eq_true_iff.mp holds).1
      next => exact known chosen isChosen
  refine general replacements none ?_ (fun _ member => member) entry matched
  intro found impossible
  cases impossible

/-- Replacing patterns without a character touches none of its occurrences. -/
lemma mem_strReplaceAll {replacements : List (Text × Text)} {c : Char}
    (avoids : ∀ entry ∈ replacements, entry.1 ≠ [] ∧ c ∉ entry.1 ∧ c ∉ entry.2) (t : Text) :
    c ∈ strReplaceAll t replacements ↔ c ∈ t := by
  have general : ∀ skipped, c ∈ strReplaceFrom replacements skipped t ↔ c ∈ t.drop skipped := by
    induction t with
    | nil => exact fun skipped => by rw [drop_nil]; cases skipped <;> rfl
    | cons first rest ih =>
      intro skipped
      cases skipped with
      | succ skipped =>
        exact ih skipped
      | zero =>
        rw [strReplaceFrom, drop_zero]
        cases matched : longestMatch replacements (first :: rest) with
        | none =>
          have after := ih 0
          rw [drop_zero] at after
          simp only [mem_cons, after]
        | some entry =>
          rcases longestMatch_some matched with ⟨member, suffix, begins⟩
          rcases avoids entry member with ⟨present, notPattern, notReplacement⟩
          have split : first :: rest = entry.1 ++ rest.drop (entry.1.length - 1) := by
            rcases exists_cons_of_ne_nil present with ⟨head, others, isPattern⟩
            rw [isPattern] at begins ⊢
            have parts := cons.inj begins
            rw [<- parts.1, <- parts.2]
            simp
          simp only [mem_append, notReplacement, false_or, ih]
          rw [split, mem_append]
          exact (or_iff_right notPattern).symm
  exact general 0

section

variable {pattern replacement : Text}

lemma longestMatch_single (t : Text) :
    longestMatch [(pattern, replacement)] t =
      if pattern <+: t then some (pattern, replacement) else none := by
  have decided : pattern.isPrefixOf t = true ↔ pattern <+: t := List.isPrefixOf_iff_prefix
  simp only [longestMatch, foldl_cons, foldl_nil, Option.all_none, Bool.and_true, decided]

lemma strReplaceFrom_skip (replacements : List (Text × Text)) (skipped : Nat) (t : Text) :
    strReplaceFrom replacements skipped t = strReplaceAll (t.drop skipped) replacements := by
  induction t generalizing skipped with
  | nil =>
    cases skipped <;> rfl
  | cons c rest ih =>
    cases skipped with
    | zero => rfl
    | succ skipped => exact ih skipped

/-- Where the pattern does not begin, a character is left alone. -/
lemma strReplaceAll_cons {c : Char} {rest : Text} (differs : ¬ pattern <+: c :: rest) :
    strReplaceAll (c :: rest) [(pattern, replacement)] =
      c :: strReplaceAll rest [(pattern, replacement)] := by
  rw [strReplaceAll, strReplaceFrom, longestMatch_single, if_neg differs]
  rfl

lemma strReplaceAll_absent {t : Text} (absent : ¬ pattern <:+: t) :
    strReplaceAll t [(pattern, replacement)] = t := by
  induction t with
  | nil => rfl
  | cons c rest ih =>
    have later : ¬ pattern <:+: rest := fun inside => absent (infix_cons inside)
    rw [strReplaceAll_cons fun begins => absent begins.isInfix, ih later]

lemma strReplaceAll_pattern (present : pattern ≠ []) (after : Text) :
    strReplaceAll (pattern ++ after) [(pattern, replacement)] =
      replacement ++ strReplaceAll after [(pattern, replacement)] := by
  rcases exists_cons_of_ne_nil present with ⟨c, rest, isPattern⟩
  have begins : pattern <+: c :: (rest ++ after) := by
    rw [isPattern]
    exact prefix_append (c :: rest) after
  have text : pattern ++ after = c :: (rest ++ after) := by
    rw [isPattern]
    rfl
  have length : pattern.length - 1 = rest.length := by
    rw [isPattern]
    rfl
  rw [text, strReplaceAll, strReplaceFrom, longestMatch_single, if_pos begins]
  change replacement ++ strReplaceFrom _ (pattern.length - 1) (rest ++ after) = _
  rw [length, strReplaceFrom_skip, drop_left]

end

variable {mark : Char} {front name replacement : Text}

lemma mark_inj {first second firstRest secondRest : Text} (inFirst : mark ∉ first)
    (inSecond : mark ∉ second) (same : first ++ mark :: firstRest = second ++ mark :: secondRest) :
    first = second ∧ firstRest = secondRest := by
  induction first generalizing second with
  | nil =>
    cases second with
    | nil => exact ⟨rfl, (cons.inj same).2⟩
    | cons c rest =>
      have isMark : mark = c := (cons.inj same).1
      exact absurd (isMark ▸ (.head _)) inSecond
  | cons c rest ih =>
    cases second with
    | nil =>
      have isMark : c = mark := (cons.inj same).1
      exact absurd (isMark ▸ (.head _)) inFirst
    | cons d others =>
      have parts := cons.inj same
      have later := ih (fun member => inFirst (mem_cons_of_mem c member))
        (fun member => inSecond (mem_cons_of_mem d member)) parts.2
      exact ⟨by rw [parts.1, later.1], later.2⟩

lemma marked_begins {before rest : Text} (unmarked : mark ∉ front) (inBefore : mark ∉ before)
    (begins : front ++ mark :: name <+: before ++ mark :: rest) :
    front = before ∧ name <+: rest := by
  rcases begins with ⟨after, same⟩
  rw [append_assoc] at same
  have parts := mark_inj unmarked inBefore same
  exact ⟨parts.1, after, parts.2⟩

lemma strReplaceAll_unmarked {t : Text} (noMark : mark ∉ t) :
    strReplaceAll t [(front ++ mark :: name, replacement)] = t := by
  induction t with
  | nil => rfl
  | cons c rest ih =>
    rw [strReplaceAll_cons, ih fun member => noMark (mem_cons_of_mem c member)]
    intro begins
    exact noMark (begins.mem (mem_append_right front (.head _)))

lemma strReplaceAll_marked {before : Text} (unmarked : mark ∉ front)
    (inBefore : mark ∉ before) (rest : Text) :
    strReplaceAll (before ++ (front ++ mark :: (name ++ rest)))
        [(front ++ mark :: name, replacement)] =
      before ++ (replacement ++ strReplaceAll rest [(front ++ mark :: name, replacement)]) := by
  induction before with
  | nil =>
    have present : front ++ mark :: name ≠ [] :=
      append_ne_nil_of_right_ne_nil front (cons_ne_nil mark name)
    have regrouped : front ++ mark :: (name ++ rest) = (front ++ mark :: name) ++ rest := by
      rw [append_assoc, cons_append]
    rw [nil_append, nil_append, regrouped, strReplaceAll_pattern present]
  | cons c others ih =>
    rw [cons_append, strReplaceAll_cons, ih fun member => inBefore (mem_cons_of_mem c member)]
    · rfl
    · intro begins
      have regrouped : c :: (others ++ (front ++ mark :: (name ++ rest))) =
          (c :: others ++ front) ++ mark :: (name ++ rest) := by
        rw [cons_append, cons_append, append_assoc]
      rw [regrouped] at begins
      have outside : mark ∉ c :: others ++ front := by
        rw [mem_append]
        rintro (member | member)
        · exact inBefore member
        · exact unmarked member
      have same := congrArg List.length (marked_begins unmarked outside begins).1
      rw [length_append, length_cons] at same
      omega

/-- The first mark is left alone if it does not stand between the parts of the pattern. -/
lemma strReplaceAll_skip {before rest : Text} (unmarked : mark ∉ front)
    (inBefore : mark ∉ before) (differs : ¬ (front <:+ before ∧ name <+: rest)) :
    strReplaceAll (before ++ mark :: rest) [(front ++ mark :: name, replacement)] =
      before ++ mark :: strReplaceAll rest [(front ++ mark :: name, replacement)] := by
  induction before with
  | nil =>
    rw [nil_append, nil_append, strReplaceAll_cons]
    intro begins
    have parts := marked_begins unmarked inBefore begins
    exact differs ⟨parts.1 ▸ suffix_rfl, parts.2⟩
  | cons c others ih =>
    have later : ¬ (front <:+ others ∧ name <+: rest) := by
      intro both
      exact differs ⟨both.1.trans (suffix_cons c others), both.2⟩
    rw [cons_append, strReplaceAll_cons,
      ih (fun member => inBefore (mem_cons_of_mem c member)) later]
    · rfl
    · intro begins
      have parts := marked_begins unmarked inBefore begins
      exact differs ⟨parts.1 ▸ suffix_rfl, parts.2⟩

end Ecclesia.Absl
