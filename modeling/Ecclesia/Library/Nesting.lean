import Mathlib.Algebra.Order.Ring.Int
import Mathlib.Data.List.Infix

namespace Ecclesia.Library

open List

/-!
# Pieces outside of groups

A text has groups between an opening and a closing symbol.  It is cut into pieces at the
separators that are outside of all groups.
-/

structure Delimiters (Symbol : Type) where
  opening : Symbol
  closing : Symbol
  separator : Symbol
  closes : closing ≠ opening
  apart : separator ≠ opening ∧ separator ≠ closing

namespace Delimiters

variable {Symbol : Type} [DecidableEq Symbol] (marks : Delimiters Symbol)

/-- The groups that a text opens, less those that it closes. -/
def depth (t : List Symbol) : Int :=
  (t.count marks.opening : Int) - t.count marks.closing

def change (c : Symbol) : Int :=
  if c = marks.opening then 1 else if c = marks.closing then -1 else 0

lemma depth_nil : marks.depth [] = 0 := rfl

lemma depth_append (first second : List Symbol) :
    marks.depth (first ++ second) = marks.depth first + marks.depth second := by
  unfold depth
  rw [count_append, count_append]
  omega

lemma depth_singleton (c : Symbol) : marks.depth [c] = marks.change c := by
  unfold depth change
  rw [count_singleton]
  by_cases opens : c = marks.opening
  · have other : ¬ c = marks.closing := fun closes => marks.closes (closes.symm.trans opens)
    simp [opens, marks.closes.symm]
  · by_cases closes : c = marks.closing
    · simp [closes, marks.closes]
    · simp [opens, closes]

lemma depth_cons (c : Symbol) (rest : List Symbol) :
    marks.depth (c :: rest) = marks.change c + marks.depth rest := by
  rw [<- depth_singleton, <- depth_append, singleton_append]

lemma change_separator : marks.change marks.separator = 0 := by
  rw [change, if_neg marks.apart.1, if_neg marks.apart.2]

/-- Groups are balanced and not nested: no group is open, or one, wherever the text is looked at,
and none at its end. -/
structure BalancedFrom (start : Int) (t : List Symbol) : Prop where
  single : ∀ before, before <+: t -> start + marks.depth before = 0 ∨ start + marks.depth before = 1
  settled : start + marks.depth t = 0

abbrev Balanced (t : List Symbol) : Prop := marks.BalancedFrom 0 t

variable {marks} {start : Int} {c : Symbol} {rest : List Symbol}

lemma BalancedFrom.atStart (balanced : marks.BalancedFrom start rest) : start = 0 ∨ start = 1 := by
  have here := balanced.single [] nil_prefix
  rwa [depth_nil, Int.add_zero] at here

lemma balancedFrom_nil : marks.BalancedFrom start [] ↔ start = 0 := by
  constructor
  · intro balanced
    have settled := balanced.settled
    rwa [depth_nil, Int.add_zero] at settled
  · rintro rfl
    refine ⟨fun before isPrefix => ?_, rfl⟩
    rw [prefix_nil.mp isPrefix]
    exact .inl rfl

lemma balancedFrom_cons : marks.BalancedFrom start (c :: rest) ↔
    (start = 0 ∨ start = 1) ∧ marks.BalancedFrom (start + marks.change c) rest := by
  constructor
  · intro balanced
    refine ⟨balanced.atStart, fun before isPrefix => ?_, ?_⟩
    · have behind := balanced.single (c :: before) (cons_prefix_cons.mpr ⟨rfl, isPrefix⟩)
      rwa [depth_cons, <- Int.add_assoc] at behind
    · rw [Int.add_assoc, <- depth_cons]
      exact balanced.settled
  · rintro ⟨here, balanced⟩
    constructor
    · intro before isPrefix
      cases before with
      | nil => rwa [depth_nil, Int.add_zero]
      | cons other before =>
        rcases cons_prefix_cons.mp isPrefix with ⟨rfl, later⟩
        rw [depth_cons, <- Int.add_assoc]
        exact balanced.single before later
    · rw [depth_cons, <- Int.add_assoc]
      exact balanced.settled

/-- No separator in the text is outside of all groups, if so many are open before. -/
def UncutFrom (marks : Delimiters Symbol) (start : Int) (t : List Symbol) : Prop :=
  ∀ before after, t = before ++ marks.separator :: after -> start + marks.depth before ≠ 0

/-- The pieces of a text, between the separators outside of all groups. -/
inductive Pieces (marks : Delimiters Symbol) : List Symbol -> List (List Symbol) -> Prop
  | last {piece : List Symbol} (uncut : marks.UncutFrom 0 piece) : Pieces marks piece [piece]
  | cons {piece rest : List Symbol} {pieces : List (List Symbol)}
      (uncut : marks.UncutFrom 0 piece) (outside : marks.depth piece = 0)
      (later : Pieces marks rest pieces) :
      Pieces marks (piece ++ marks.separator :: rest) (piece :: pieces)

/-- The pieces of a text, of which the first one has begun with some symbols. -/
def cutFrom (marks : Delimiters Symbol) : Int -> List Symbol -> List Symbol -> List (List Symbol)
  | _, piece, [] => [piece]
  | start, piece, c :: rest =>
    if c = marks.separator ∧ start = 0 then piece :: cutFrom marks 0 [] rest
    else cutFrom marks (start + marks.change c) (piece ++ [c]) rest

def cut (marks : Delimiters Symbol) (t : List Symbol) : List (List Symbol) :=
  marks.cutFrom 0 [] t

lemma uncutFrom_nil : marks.UncutFrom start [] := by
  intro before after split
  cases before <;> cases split

lemma uncutFrom_of_notMem (absent : marks.separator ∉ rest) : marks.UncutFrom start rest := by
  intro before after split
  exact absurd (split ▸ mem_append_right before (.head _)) absent

lemma UncutFrom.tail (uncut : marks.UncutFrom start (c :: rest)) :
    marks.UncutFrom (start + marks.change c) rest := by
  intro before after split
  rw [Int.add_assoc, <- depth_cons]
  exact uncut (c :: before) after (by rw [split, cons_append])

/-- A piece goes on with everything but a separator outside of all groups. -/
lemma UncutFrom.concat {piece : List Symbol} (uncut : marks.UncutFrom start piece)
    (goesOn : ¬ (c = marks.separator ∧ start + marks.depth piece = 0)) :
    marks.UncutFrom start (piece ++ [c]) := by
  intro before after split
  rcases eq_nil_or_concat after with rfl | ⟨others, last, rfl⟩
  · rcases append_inj' split rfl with ⟨rfl, same⟩
    cases same
    exact fun outside => goesOn ⟨rfl, outside⟩
  · rw [concat_eq_append, <- cons_append, <- append_assoc] at split
    exact uncut before others (append_inj' split rfl).1

lemma pieces_cutFrom {piece : List Symbol} (uncut : marks.UncutFrom 0 piece) :
    marks.Pieces (piece ++ rest) (marks.cutFrom (marks.depth piece) piece rest) := by
  induction rest generalizing piece with
  | nil =>
    rw [append_nil]
    exact .last uncut
  | cons c rest ih =>
    rw [cutFrom]
    split
    · rename_i cuts
      rw [cuts.1]
      exact .cons uncut cuts.2 (ih uncutFrom_nil)
    · rename_i goesOn
      rw [<- depth_singleton, <- depth_append, append_cons]
      exact ih (uncut.concat (by rwa [Int.zero_add]))

lemma pieces_cut (t : List Symbol) : marks.Pieces t (marks.cut t) := pieces_cutFrom uncutFrom_nil

variable {t : List Symbol}

lemma cutFrom_append (uncut : marks.UncutFrom start t) (piece rest : List Symbol) :
    marks.cutFrom start piece (t ++ rest) =
      marks.cutFrom (start + marks.depth t) (piece ++ t) rest := by
  induction t generalizing start piece with
  | nil => rw [depth_nil, Int.add_zero, append_nil, nil_append]
  | cons c t ih =>
    have goesOn : ¬ (c = marks.separator ∧ start = 0) := by
      rintro ⟨rfl, outside⟩
      exact uncut [] t rfl (by rw [depth_nil, outside]; rfl)
    rw [cons_append, cutFrom, if_neg goesOn, ih uncut.tail, depth_cons, Int.add_assoc,
      append_assoc, singleton_append]

variable {pieces : List (List Symbol)}

/-- A text has no other pieces. -/
lemma Pieces.eq_cut (isCut : marks.Pieces t pieces) : pieces = marks.cut t := by
  induction isCut with
  | @last piece uncut =>
    have whole := cutFrom_append uncut [] []
    rw [append_nil] at whole
    rw [cut, whole]
    rfl
  | @cons piece rest pieces uncut outside later ih =>
    rw [cut, cutFrom_append uncut, outside, cutFrom, if_pos ⟨rfl, rfl⟩, ih]
    rfl

/-- Every piece of a balanced text is a whole one. -/
lemma Pieces.whole (isCut : marks.Pieces t pieces) (settled : marks.depth t = 0) :
    ∀ piece ∈ pieces, marks.UncutFrom 0 piece ∧ marks.depth piece = 0 := by
  induction isCut with
  | last uncut => exact forall_mem_singleton.mpr ⟨uncut, settled⟩
  | @cons piece rest pieces uncut outside later ih =>
    rw [depth_append, outside, depth_cons, change_separator, Int.zero_add, Int.zero_add] at settled
    exact forall_mem_cons.mpr ⟨⟨uncut, outside⟩, ih settled⟩

lemma pieces_flatMap (whole : ∀ piece ∈ pieces, marks.UncutFrom 0 piece ∧ marks.depth piece = 0)
    {piece : List Symbol} (uncut : marks.UncutFrom 0 piece) (outside : marks.depth piece = 0) :
    marks.Pieces (piece ++ pieces.flatMap fun next => marks.separator :: next)
      (piece :: pieces) := by
  induction pieces generalizing piece with
  | nil =>
    rw [flatMap_nil, append_nil]
    exact .last uncut
  | cons next pieces ih =>
    rcases forall_mem_cons.mp whole with ⟨here, later⟩
    rw [flatMap_cons, cons_append]
    exact .cons uncut outside (ih later here.1 here.2)

/-- Whole pieces with a separator before each are found again. -/
lemma cut_flatMap (whole : ∀ piece ∈ pieces, marks.UncutFrom 0 piece ∧ marks.depth piece = 0) :
    marks.cut (pieces.flatMap fun piece => marks.separator :: piece) = [] :: pieces :=
  (pieces_flatMap whole uncutFrom_nil marks.depth_nil).eq_cut.symm

/-- What is not cut lies in one piece. -/
lemma Pieces.infix_piece (isCut : marks.Pieces t pieces) {before inside after : List Symbol}
    (split : t = before ++ (inside ++ after))
    (uncut : marks.UncutFrom (marks.depth before) inside) :
    ∃ piece ∈ pieces, inside <:+: piece := by
  induction isCut generalizing before with
  | @last piece _ =>
    exact ⟨piece, mem_singleton_self piece, before, after, by rw [split, append_assoc]⟩
  | @cons piece rest pieces _ outside later ih =>
    rcases append_eq_append_iff.mp split with ⟨more, begins, behind⟩ | ⟨more, begins, behind⟩
    · cases more with
      | nil =>
        -- The separator behind the piece does not belong to the symbols.
        rw [append_nil] at begins
        cases inside with
        | nil => exact ⟨piece, .head _, nil_infix⟩
        | cons c inside =>
          cases behind
          refine absurd ?_ (uncut [] inside rfl)
          rw [begins, outside]
          rfl
      | cons c more =>
        cases behind
        rw [begins, depth_append, depth_cons, outside, change_separator, Int.zero_add,
          Int.zero_add] at uncut
        rcases ih rfl uncut with ⟨found, member, isInfix⟩
        exact ⟨found, mem_cons_of_mem piece member, isInfix⟩
    · refine ⟨piece, .head _, ?_⟩
      rw [begins]
      rcases append_eq_append_iff.mp behind with ⟨tail, within, _⟩ | ⟨tail, within, goesOn⟩
      · rw [within]
        exact (prefix_append inside tail).isInfix.trans (suffix_append _ _).isInfix
      · cases tail with
        | nil =>
          rw [append_nil] at within
          rw [within]
          exact (suffix_append _ _).isInfix
        | cons c tail =>
          cases goesOn
          refine absurd ?_ (uncut more tail within)
          rw [<- depth_append, <- begins, outside]

lemma depth_of_notMem (noOpening : marks.opening ∉ t)
    (noClosing : marks.closing ∉ t) : marks.depth t = 0 := by
  rw [depth, count_eq_zero_of_not_mem noOpening, count_eq_zero_of_not_mem noClosing]
  rfl

/-- A group has no separator that is outside of it. -/
lemma uncutFrom_group {inside : List Symbol} (noOpening : marks.opening ∉ inside)
    (noClosing : marks.closing ∉ inside) :
    marks.UncutFrom 0 (marks.opening :: (inside ++ [marks.closing])) := by
  intro before after split
  cases before with
  | nil => exact absurd (cons.inj split).1.symm marks.apart.1
  | cons c before =>
    rcases cons.inj split with ⟨rfl, within⟩
    rcases eq_nil_or_concat after with rfl | ⟨others, last, rfl⟩
    · rcases append_inj' within rfl with ⟨-, same⟩
      exact absurd (cons.inj same).1.symm marks.apart.2
    · have longer : inside ++ [marks.closing] =
          (before ++ marks.separator :: others) ++ [last] := by
        rw [append_assoc, cons_append, <- @List.concat_eq_append _ others]
        exact within
      have whole := (append_inj' longer rfl).1
      rw [whole, mem_append, not_or] at noOpening noClosing
      rw [depth_cons, depth_of_notMem noOpening.1 noClosing.1, change, if_pos rfl]
      decide

/-- No group is open before a group of a balanced text. -/
lemma BalancedFrom.outside {before rest : List Symbol}
    (balanced : marks.Balanced (before ++ marks.opening :: rest)) : marks.depth before = 0 := by
  have here := balanced.single before (prefix_append _ _)
  have opened := balanced.single (before ++ [marks.opening])
    ⟨rest, by rw [append_assoc, singleton_append]⟩
  rw [depth_append, depth_singleton, change, if_pos rfl] at opened
  omega

end Delimiters
end Ecclesia.Library
