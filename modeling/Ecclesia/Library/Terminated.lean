import Mathlib.Data.List.Basic

namespace Ecclesia

open List

/-!
# Items that end in a mark

Items without a mark are written one after the other, each with a mark behind it, and one more
mark ends them all.  A reader that takes items up to their marks and a search for two marks in
a row agree on where they end.
-/

variable {Symbol : Type} (mark : Symbol)

/-- Items with a mark behind each. -/
def terminated (items : List (List Symbol)) : List Symbol :=
  items.flatMap fun item => item ++ [mark]

/-- The items up to one that is empty. -/
inductive Lists : List (List Symbol) -> List Symbol -> Prop
  | done (rest : List Symbol) : Lists [] (mark :: rest)
  | item {item : List Symbol} {items : List (List Symbol)} {rest : List Symbol}
      (present : item ≠ []) (unmarked : mark ∉ item) (later : Lists items rest) :
      Lists (item :: items) (item ++ mark :: rest)

variable {mark}

lemma terminated_cons (item : List Symbol) (items : List (List Symbol)) :
    terminated mark (item :: items) = item ++ mark :: terminated mark items := by
  rw [terminated, flatMap_cons, append_assoc]
  rfl

variable {items : List (List Symbol)} {symbols : List Symbol}

lemma Lists.whole (lists : Lists mark items symbols) :
    ∃ rest, symbols = terminated mark items ++ mark :: rest := by
  induction lists with
  | done rest => exact ⟨rest, rfl⟩
  | item present unmarked later ih =>
    rcases ih with ⟨after, whole⟩
    exact ⟨after, by rw [whole, terminated_cons, append_assoc]; rfl⟩

/-- Items are read back from where they are written. -/
lemma lists_terminated (plain : ∀ item ∈ items, item ≠ [] ∧ mark ∉ item) (rest : List Symbol) :
    Lists mark items (terminated mark items ++ mark :: rest) := by
  induction items with
  | nil => exact .done rest
  | cons item items ih =>
    have here := plain item (.head _)
    rw [terminated_cons, append_assoc]
    exact .item here.1 here.2 (ih fun other member => plain other (.tail _ member))

variable (mark) [DecidableEq Symbol]

def twoMarksAt : List Symbol -> Option Nat
  | first :: second :: rest =>
    if first = mark ∧ second = mark then some 0
    else (twoMarksAt (second :: rest)).map fun position => position + 1
  | _ => none

variable {mark}

lemma twoMarksAt_unmarked (unmarked : mark ∉ symbols) : twoMarksAt mark symbols = none := by
  induction symbols with
  | nil => rfl
  | cons first symbols ih =>
    cases symbols with
    | nil => rfl
    | cons second rest =>
      have different : ¬ (first = mark ∧ second = mark) := fun both => unmarked (both.1 ▸ (.head _))
      rw [twoMarksAt, if_neg different, ih fun member => unmarked (.tail _ member)]
      rfl

/-- The first mark is followed by another one, or the search goes on behind it. -/
lemma twoMarksAt_append {item : List Symbol} (unmarked : mark ∉ item) (rest : List Symbol) :
    twoMarksAt mark (item ++ mark :: rest) =
      if rest.head? = some mark then some item.length
      else (twoMarksAt mark rest).map fun position => item.length + 1 + position := by
  induction item with
  | nil =>
    cases rest with
    | nil => rfl
    | cons second rest =>
      simp only [nil_append, twoMarksAt, head?_cons, Option.some.injEq, true_and,
        length_nil, Nat.add_comm 1]
  | cons symbol item ih =>
    have different : symbol ≠ mark := fun same => unmarked (same ▸ (.head _))
    have later := ih fun member => unmarked (.tail _ member)
    have step : twoMarksAt mark (symbol :: (item ++ mark :: rest)) =
        (twoMarksAt mark (item ++ mark :: rest)).map fun position => position + 1 := by
      cases item with
      | nil => rw [nil_append, twoMarksAt, if_neg fun both => different both.1]
      | cons second item => rw [cons_append, twoMarksAt, if_neg fun both => different both.1]
    rw [cons_append, step, later]
    split
    · rfl
    · rw [Option.map_map]
      apply congrArg (fun moved => (twoMarksAt mark rest).map moved)
      funext position
      change item.length + 1 + position + 1 = item.length + 1 + 1 + position
      omega

lemma twoMarksAt_lt : ∀ {position : Nat},
    twoMarksAt mark symbols = some position -> position + 2 <= symbols.length := by
  induction symbols with
  | nil => exact fun impossible => by cases impossible
  | cons first symbols ih =>
    intro position found
    cases symbols with
    | nil => cases found
    | cons second rest =>
      rw [twoMarksAt] at found
      split at found
      · cases found
        rw [length_cons, length_cons]
        omega
      · rcases Option.map_eq_some_iff.mp found with ⟨later, laterFound, same⟩
        have bound := ih laterFound
        rw [length_cons]
        omega

/-- If there are two marks in a row, then items are read, and they end with these marks at the
latest. -/
lemma lists_of_twoMarksAt (symbols : List Symbol) :
    ∀ position, twoMarksAt mark symbols = some position ->
      ∃ items, Lists mark items symbols ∧ (terminated mark items).length <= position + 1 := by
  intro position found
  by_cases marked : mark ∈ symbols
  · rcases eq_append_cons_of_mem marked with ⟨item, rest, whole, unmarked⟩
    subst whole
    rw [twoMarksAt_append unmarked] at found
    cases item with
    | nil => exact ⟨[], .done rest, Nat.zero_le _⟩
    | cons symbol item =>
      have present : symbol :: item ≠ [] := cons_ne_nil _ _
      by_cases isEnd : rest.head? = some mark
      · rw [if_pos isEnd] at found
        cases found
        cases rest with
        | nil => cases isEnd
        | cons second rest =>
          cases isEnd
          refine ⟨[symbol :: item], .item present unmarked (.done rest), ?_⟩
          rw [terminated_cons, length_append]
          exact Nat.le_refl _
      · rw [if_neg isEnd] at found
        rcases Option.map_eq_some_iff.mp found with ⟨later, laterFound, same⟩
        have shorter : rest.length < (symbol :: item ++ mark :: rest).length := by
          rw [length_append, length_cons, length_cons]
          omega
        rcases lists_of_twoMarksAt rest later laterFound with ⟨items, lists, bound⟩
        refine ⟨(symbol :: item) :: items, .item present unmarked lists, ?_⟩
        rw [terminated_cons, length_append, length_cons (a := mark)]
        omega
  · rw [twoMarksAt_unmarked marked] at found
    cases found
termination_by symbols.length

/-- Behind some items the two marks in a row are the last one of them and the one that ends
them all. -/
lemma twoMarksAt_terminated (some_ : items ≠ [])
    (plain : ∀ item ∈ items, item ≠ [] ∧ mark ∉ item) (rest : List Symbol) :
    ∃ position, twoMarksAt mark (terminated mark items ++ mark :: rest) = some position ∧
      position + 1 = (terminated mark items).length := by
  induction items with
  | nil => exact absurd rfl some_
  | cons item items ih =>
    have here := plain item (.head _)
    rw [terminated_cons, append_assoc, cons_append, twoMarksAt_append here.2]
    cases items with
    | nil =>
      refine ⟨item.length, if_pos rfl, ?_⟩
      rw [length_append]
      rfl
    | cons second items =>
      have next := plain second (.tail _ (.head _))
      rcases ih (cons_ne_nil _ _) (fun other member =>
        plain other (.tail _ member)) with ⟨position, found, last⟩
      have noEnd : (terminated mark (second :: items) ++ mark :: rest).head? ≠ some mark := by
        cases second with
        | nil => exact absurd rfl next.1
        | cons symbol second =>
          intro same
          cases same
          exact next.2 (.head _)
      refine ⟨item.length + 1 + position, by rw [if_neg noEnd, found]; rfl, ?_⟩
      rw [length_append, length_cons]
      omega

end Ecclesia
