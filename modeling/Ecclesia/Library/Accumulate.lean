import Mathlib.Data.List.Basic

namespace Ecclesia

open List

/-!
# Results that are collected until something fails

A loop adds what it finds for each item to the results that it has, and an item may make it
fail.  What such a loop collects and when it fails follow from what is known of one item, and
the body of a loop may be such a loop itself.
-/

variable {Error Item Result Value : Type}

/-- A failure with an error of a certain kind. -/
def FailsWith (kind : Error -> Prop) (outcome : Except Error Value) : Prop :=
  ∃ error, outcome = .error error ∧ kind error

/-- A step that fails at some items, and adds certain results at the others. -/
structure Appends (kind : Error -> Prop) (step : List Result -> Item -> Except Error (List Result))
    (fails : Item -> Prop) (added : Item -> List Result) : Prop where
  failing : ∀ kept item, fails item -> FailsWith kind (step kept item)
  adding : ∀ kept item, ¬ fails item -> step kept item = .ok (kept ++ added item)

/-- A condition of which it is known where it fails and what it says elsewhere. -/
structure Decides (kind : Error -> Prop) (condition : Item -> Except Error Bool)
    (fails : Item -> Prop) (holds : Item -> Bool) : Prop where
  failing : ∀ item, fails item -> FailsWith kind (condition item)
  answering : ∀ item, ¬ fails item -> condition item = .ok (holds item)

variable {kind : Error -> Prop} {fails : Item -> Prop} {added : Item -> List Result}

/-- The item is added if the condition says so. -/
def keepIf (condition : Item -> Except Error Bool) (kept : List Item) (item : Item) :
    Except Error (List Item) := do
  if <- condition item then return kept ++ [item] else return kept

lemma Decides.appends {condition : Item -> Except Error Bool} {holds : Item -> Bool}
    (decides : Decides kind condition fails holds) :
    Appends kind (keepIf condition) fails fun item => if holds item then [item] else [] where
  failing := by
    intro kept item failing
    rcases decides.failing item failing with ⟨error, failed, isKind⟩
    refine ⟨error, ?_, isKind⟩
    rw [keepIf, failed]
    rfl
  adding := by
    intro kept item fine
    rw [keepIf, decides.answering item fine]
    cases holds item with
    | true => rfl
    | false => exact congrArg Except.ok (append_nil kept).symm

namespace Appends

variable {step : List Result -> Item -> Except Error (List Result)}

/-- A loop fails if one of its items makes it fail, and adds the results of all of them
otherwise. -/
lemma foldlM (appends : Appends kind step fails added) :
    Appends kind (fun kept (items : List Item) => items.foldlM step kept)
      (fun items => ∃ item ∈ items, fails item) (fun items => items.flatMap added) where
  failing := by
    intro kept items failing
    induction items generalizing kept with
    | nil =>
      rcases failing with ⟨item, member, fault⟩
      cases member
    | cons first rest ih =>
      rw [foldlM_cons]
      by_cases here : fails first
      · rcases appends.failing kept first here with ⟨error, failed, isKind⟩
        refine ⟨error, ?_, isKind⟩
        rw [failed]
        rfl
      · rw [appends.adding kept first here]
        apply ih
        rcases failing with ⟨item, member, fault⟩
        rcases mem_cons.mp member with same | later
        · exact absurd (same ▸ fault) here
        · exact ⟨item, later, fault⟩
  adding := by
    intro kept items fine
    induction items generalizing kept with
    | nil => exact congrArg Except.ok (append_nil kept).symm
    | cons first rest ih =>
      rw [foldlM_cons, appends.adding kept first fun fault =>
        fine ⟨first, .head _, fault⟩]
      change rest.foldlM step (kept ++ added first) = _
      rw [ih _ fun ⟨item, member, fault⟩ => fine ⟨item, .tail _ member, fault⟩,
        flatMap_cons, append_assoc]

end Appends

lemma flatMap_keep (holds : Item -> Bool) (items : List Item) :
    (items.flatMap fun item => if holds item then [item] else []) = items.filter holds := by
  induction items with
  | nil => rfl
  | cons first rest ih =>
    rw [flatMap_cons, ih, filter_cons]
    cases holds first with
    | true => rfl
    | false => rfl

end Ecclesia
