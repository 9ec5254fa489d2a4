import Mathlib.Data.List.Infix

namespace Ecclesia

/-!
# Computations that keep a report

A check writes entries into a report and goes on, or it fails and stops.  An entry
that has been written stays, so the report of a computation is an extension of the
report it starts with; this is part of what a computation is.

A computation is clean if it neither fails nor writes an entry.  Whether it is clean
can be read off its parts.
-/

/-- A computation that extends a report and fails or returns a value. -/
structure Report (Entry Failure Value : Type) where
  run : List Entry -> Except Failure Value × List Entry
  grows : ∀ entries, entries <+: (run entries).2

namespace Report

variable {Entry Failure Value Result State Item : Type}

instance : Monad (Report Entry Failure) where
  pure value := ⟨fun entries => (.ok value, entries), fun _ => List.prefix_rfl⟩
  bind first next :=
    { run := fun entries =>
        match first.run entries with
        | (.ok value, more) => (next value).run more
        | (.error failure, more) => (.error failure, more)
      grows := by
        intro entries
        have before := first.grows entries
        cases ran : first.run entries with
        | mk outcome more =>
          rw [ran] at before
          cases outcome with
          | ok value => exact before.trans ((next value).grows more)
          | error failure => exact before }

/-- Stop with a failure. -/
def fail (failure : Failure) : Report Entry Failure Value :=
  ⟨fun entries => (.error failure, entries), fun _ => List.prefix_rfl⟩

def write (entry : Entry) : Report Entry Failure Unit :=
  ⟨fun entries => (.ok (), entries ++ [entry]), fun entries => List.prefix_append entries [entry]⟩

/-- The entries so far. -/
def entries : Report Entry Failure (List Entry) :=
  ⟨fun entries => (.ok entries, entries), fun _ => List.prefix_rfl⟩

/-- Go on after a failure, which is returned. -/
def attempt (computation : Report Entry Failure Unit) : Report Entry Failure (Option Failure) where
  run entries :=
    match computation.run entries with
    | (.ok _, more) => (.ok none, more)
    | (.error failure, more) => (.ok (some failure), more)
  grows := by
    intro entries
    have before := computation.grows entries
    cases ran : computation.run entries with
    | mk outcome more =>
      rw [ran] at before
      cases outcome with
      | ok value => exact before
      | error failure => exact before

/-- What a computation returns if it neither fails nor writes an entry. -/
def clean (computation : Report Entry Failure Value) : Option Value :=
  match computation.run [] with
  | (.ok value, []) => some value
  | _ => none

@[simp] lemma clean_pure (value : Value) :
    (pure value : Report Entry Failure Value).clean = some value := rfl

@[simp] lemma clean_fail (failure : Failure) :
    (fail failure : Report Entry Failure Value).clean = none := rfl

@[simp] lemma clean_write (entry : Entry) :
    (write entry : Report Entry Failure Unit).clean = none := rfl

@[simp] lemma clean_entries : (entries : Report Entry Failure (List Entry)).clean = some [] := rfl

lemma clean_eq_some {computation : Report Entry Failure Value} {value : Value} :
    computation.clean = some value ↔ computation.run [] = (.ok value, []) := by
  unfold clean
  split
  · rename_i found ran
    rw [ran, Option.some_inj, Prod.mk.injEq, Except.ok.injEq, and_iff_left rfl]
  · rename_i different
    exact iff_of_false nofun fun ran => different value ran

lemma run_ne_nil (computation : Report Entry Failure Value) {entries : List Entry}
    (written : entries ≠ []) : (computation.run entries).2 ≠ [] := by
  intro empty
  have extends_ := computation.grows entries
  rw [empty] at extends_
  exact written (List.prefix_nil.mp extends_)

lemma clean_bind (first : Report Entry Failure Value)
    (next : Value -> Report Entry Failure Result) :
    (first >>= next).clean = first.clean.bind fun value => (next value).clean := by
  have ran : (first >>= next).run [] = match first.run [] with
    | (.ok value, more) => (next value).run more
    | (.error failure, more) => (.error failure, more) := rfl
  cases start : first.run [] with
  | mk outcome more =>
    rw [start] at ran
    cases outcome with
    | error failure =>
      have none : first.clean = none := by
        rw [clean, start]
      rw [none, clean, ran, Option.bind_none]
    | ok value =>
      cases more with
      | nil =>
        have some_ : first.clean = some value := clean_eq_some.mpr start
        rw [some_, Option.bind_some, clean, ran, clean]
      | cons entry rest =>
        have none : first.clean = none := by
          rw [clean, start]
        rw [none]
        cases found : (first >>= next).clean with
        | none => rfl
        | some result =>
          rw [clean_eq_some, ran] at found
          have written := (next value).run_ne_nil (List.cons_ne_nil entry rest)
          exact (written (congrArg Prod.snd found)).elim

lemma clean_attempt (computation : Report Entry Failure Unit) :
    computation.attempt.clean = some none ↔ computation.clean = some () := by
  rw [clean_eq_some, clean_eq_some]
  simp only [attempt]
  cases computation.run [] with
  | mk outcome more =>
    cases outcome with
    | ok value => simp
    | error failure => simp

lemma clean_foldlM (round : State -> Item -> Report Entry Failure State) (items : List Item) :
    ∀ state, (items.foldlM round state).clean =
      items.foldlM (fun state item => (round state item).clean) state := by
  induction items with
  | nil => exact fun _ => rfl
  | cons item rest ih =>
    intro state
    rw [List.foldlM_cons, clean_bind]
    simp only [ih]
    rfl

lemma foldlM_eq_good {round : State -> Item -> Option State} {good : State}
    (only : ∀ state item, round state item = some good -> state = good) (items : List Item) :
    ∀ state, items.foldlM round state = some good ↔
      state = good ∧ ∀ item ∈ items, round good item = some good := by
  induction items with
  | nil => simp
  | cons item rest ih =>
    intro state
    rw [List.forall_mem_cons]
    change (round state item).bind _ = some good ↔ _
    rw [Option.bind_eq_some_iff]
    constructor
    · rintro ⟨next, stepped, kept⟩
      rcases (ih next).mp kept with ⟨rfl, later⟩
      have same := only state item stepped
      exact ⟨same, same ▸ stepped, later⟩
    · rintro ⟨rfl, stepped, later⟩
      exact ⟨state, stepped, (ih state).mpr ⟨rfl, later⟩⟩

end Report
end Ecclesia
