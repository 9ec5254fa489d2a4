import Mathlib.Data.List.Basic

namespace Ecclesia

/-!
# Trees and their parts

A tree is known by its immediate parts, of which each is smaller than the tree.  A walk
from a tree into its parts may be closed at certain trees: it arrives at them, but does not
go on into their parts.
-/

variable {Tree : Type} (parts : Tree -> List Tree)

/-- The trees that a walk arrives at, if it does not go on at closed ones. -/
inductive Reached (closed : Tree -> Prop) (part : Tree) : Tree -> Prop where
  | here : Reached closed part part
  | inside {whole child : Tree} (passable : ¬ closed whole) (isPart : child ∈ parts whole)
      (later : Reached closed part child) : Reached closed part whole

/-- The trees that a walk without closed trees arrives at. -/
abbrev PartOf (part whole : Tree) : Prop :=
  Reached parts (fun _ => False) part whole

variable {parts} {closed : Tree -> Prop} {part whole : Tree}

lemma reached_iff :
    Reached parts closed part whole ↔
      part = whole ∨ ¬ closed whole ∧ ∃ child ∈ parts whole,
        Reached parts closed part child := by
  constructor
  · intro reached
    cases reached with
    | here => exact .inl rfl
    | inside passable isPart later => exact .inr ⟨passable, _, isPart, later⟩
  · rintro (same | ⟨passable, child, isPart, later⟩)
    · subst same
      exact .here
    · exact .inside passable isPart later

lemma partOf_iff :
    PartOf parts part whole ↔ part = whole ∨ ∃ child ∈ parts whole, PartOf parts part child := by
  rw [PartOf, reached_iff]
  simp

/-- A walk that avoids closed trees is a walk. -/
lemma Reached.partOf (reached : Reached parts closed part whole) : PartOf parts part whole := by
  induction reached with
  | here => exact .here
  | inside _ isPart _ ih => exact .inside not_false isPart ih

lemma partOf_of_mem_parts {child : Tree} (isPart : child ∈ parts part)
    (inside : PartOf parts part whole) : PartOf parts child whole := by
  induction inside with
  | here => exact .inside not_false isPart .here
  | inside _ isStep _ ih => exact .inside not_false isStep ih

lemma exists_partOf_iff {property : Tree -> Prop} :
    (∃ part, property part ∧ PartOf parts part whole) ↔
      property whole ∨ ∃ child ∈ parts whole, ∃ part, property part ∧ PartOf parts part child := by
  constructor
  · rintro ⟨part, holds, inside⟩
    rcases partOf_iff.mp inside with same | ⟨child, isPart, later⟩
    · subst same
      exact .inl holds
    · exact .inr ⟨child, isPart, part, holds, later⟩
  · rintro (holds | ⟨child, isPart, part, holds, later⟩)
    · exact ⟨whole, holds, .here⟩
    · exact ⟨part, holds, .inside not_false isPart later⟩

/-- A walk that avoids closed trees arrives at one of them if there is any. -/
lemma exists_closed_iff :
    (∃ part, closed part ∧ PartOf parts part whole) ↔
      ∃ part, closed part ∧ Reached parts closed part whole := by
  constructor
  · rintro ⟨part, holds, inside⟩
    induction inside with
    | here => exact ⟨part, holds, .here⟩
    | @inside whole child _ isPart _ ih =>
      by_cases stop : closed whole
      · exact ⟨whole, stop, .here⟩
      · rcases ih with ⟨first, holds, reached⟩
        exact ⟨first, holds, .inside stop isPart reached⟩
  · rintro ⟨part, holds, reached⟩
    exact ⟨part, holds, reached.partOf⟩

variable (parts) in
def Everywhere (property : Tree -> Prop) (whole : Tree) : Prop :=
  ∀ part, PartOf parts part whole -> property part

lemma everywhere_iff {property : Tree -> Prop} :
    Everywhere parts property whole ↔
      property whole ∧ ∀ child ∈ parts whole, Everywhere parts property child := by
  constructor
  · intro everywhere
    refine ⟨everywhere whole .here, fun child isPart part inside => ?_⟩
    exact everywhere part (.inside not_false isPart inside)
  · rintro ⟨here, later⟩ part inside
    rcases partOf_iff.mp inside with same | ⟨child, isPart, below⟩
    · rw [same]
      exact here
    · exact later child isPart part below

lemma induction_parts {size : Tree -> Nat}
    (smaller : ∀ whole child, child ∈ parts whole -> size child < size whole)
    {motive : Tree -> Prop}
    (step : ∀ whole, (∀ child ∈ parts whole, motive child) -> motive whole) :
    ∀ whole, motive whole := by
  have bounded : ∀ bound whole, size whole < bound -> motive whole := by
    intro bound
    induction bound with
    | zero =>
      intro whole impossible
      exact absurd impossible (Nat.not_lt_zero _)
    | succ bound ih =>
      intro whole below
      refine step whole fun child isPart => ih child ?_
      have shrinks := smaller whole child isPart
      omega
  intro whole
  exact bounded _ whole (Nat.lt_succ_self _)

end Ecclesia
