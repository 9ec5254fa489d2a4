import Mathlib.Data.List.Basic

namespace Ecclesia

/-!
# Runs that end, fail or exhaust a bound

A recursion of unknown depth is run with a bound.  A run exhausts its bound, or
fails with an error, or returns a value.  What is said about a run has a part for
each of these ends, and the rules below follow the way in which runs are composed.
-/

/-- A recursion that ends within a bound has the same result under every larger one. -/
lemma result_mono {Input Output : Type*} (run : Nat -> Input -> Option Output)
    (spent : ∀ input, run 0 input = none) (step : ∀ bound more,
      (∀ input output, run bound input = some output -> run more input = some output) ->
        ∀ input output, run (bound + 1) input = some output -> run (more + 1) input = some output)
    {bound more : Nat} (enough : bound <= more) :
    ∀ input output, run bound input = some output -> run more input = some output := by
  induction bound generalizing more with
  | zero =>
    intro input output ended
    rw [spent] at ended
    cases ended
  | succ bound ih =>
    cases more with
    | zero => exact absurd enough (Nat.not_succ_le_zero _)
    | succ more => exact step bound more (ih (Nat.le_of_succ_le_succ enough))

/-- A run with a bound on its recursion. -/
abbrev Bounded (Error Value : Type) := ExceptT Error Option Value

namespace Bounded

variable {Error Value Result Item State : Type}

/-- The run that has no recursion left. -/
def exhausted : Bounded Error Value := ExceptT.mk none

def Ends (run : Bounded Error Value) (spent : Prop) (failed : Error -> Prop)
    (returned : Value -> Prop) : Prop :=
  match ExceptT.run run with
  | none => spent
  | some (.error error) => failed error
  | some (.ok value) => returned value

namespace Ends

variable {run : Bounded Error Value} {spent : Prop} {failed : Error -> Prop}
  {returned : Value -> Prop}

lemma pure {value : Value} (holds : returned value) :
    (Pure.pure value : Bounded Error Value).Ends spent failed returned :=
  holds

lemma throw {error : Error} (holds : failed error) :
    (MonadExcept.throw error : Bounded Error Value).Ends spent failed returned :=
  holds

lemma exhausted (holds : spent) : (.exhausted : Bounded Error Value).Ends spent failed returned :=
  holds

lemma bind {next : Value -> Bounded Error Result} {afterwards : Result -> Prop}
    (first : run.Ends spent failed returned)
    (second : ∀ value, returned value -> (next value).Ends spent failed afterwards) :
    (run >>= next).Ends spent failed afterwards := by
  change match ExceptT.run (run >>= next) with
    | none => spent
    | some (.error error) => failed error
    | some (.ok value) => afterwards value
  rw [ExceptT.run_bind]
  cases ended : ExceptT.run run with
  | none =>
    rw [Ends, ended] at first
    exact first
  | some outcome =>
    rw [Ends, ended] at first
    cases outcome with
    | error error => exact first
    | ok value => exact second value first

lemma of_ok {value : Value} (ends : run.Ends spent failed returned)
    (ended : ExceptT.run run = some (.ok value)) : returned value := by
  unfold Ends at ends
  rw [ended] at ends
  exact ends

/-- Less can be said about every end. -/
lemma weaken {spentAfter : Prop} {failedAfter : Error -> Prop} {returnedAfter : Value -> Prop}
    (ends : run.Ends spent failed returned) (onSpent : spent -> spentAfter)
    (onFailed : ∀ error, failed error -> failedAfter error)
    (onReturned : ∀ value, returned value -> returnedAfter value) :
    run.Ends spentAfter failedAfter returnedAfter := by
  unfold Ends at ends ⊢
  cases ended : ExceptT.run run with
  | none =>
    rw [ended] at ends
    exact onSpent ends
  | some outcome =>
    rw [ended] at ends
    cases outcome with
    | error error => exact onFailed error ends
    | ok value => exact onReturned value ends

/-- Two things that hold of every end hold together. -/
lemma and {otherSpent : Prop} {otherFailed : Error -> Prop} {otherReturned : Value -> Prop}
    (first : run.Ends spent failed returned)
    (second : run.Ends otherSpent otherFailed otherReturned) :
    run.Ends (spent ∧ otherSpent) (fun error => failed error ∧ otherFailed error)
      (fun value => returned value ∧ otherReturned value) := by
  unfold Ends at first second ⊢
  cases ended : ExceptT.run run with
  | none =>
    rw [ended] at first second
    exact ⟨first, second⟩
  | some outcome =>
    rw [ended] at first second
    cases outcome with
    | error error => exact ⟨first, second⟩
    | ok value => exact ⟨first, second⟩

/-- A loop keeps an invariant that knows which items have been done. -/
lemma foldlM {body : State -> Item -> Bounded Error State} {spent : Prop} {failed : Error -> Prop}
    (Invariant : List Item -> State -> Prop) (items : List Item) {start : State}
    (initially : Invariant [] start)
    (step : ∀ done item later state, items = done ++ item :: later -> Invariant done state ->
      (body state item).Ends spent failed (Invariant (done ++ [item]))) :
    (items.foldlM body start).Ends spent failed (Invariant items) := by
  have general : ∀ (later done : List Item) (state : State), items = done ++ later ->
      Invariant done state -> (later.foldlM body state).Ends spent failed (Invariant items) := by
    intro later
    induction later with
    | nil =>
      intro done state split holds
      rw [List.append_nil] at split
      subst split
      exact .pure holds
    | cons item rest ih =>
      intro done state split holds
      apply bind (step done item rest state split holds)
      intro after holdsAfter
      apply ih (done ++ [item]) after _ holdsAfter
      rw [split, List.append_assoc]
      rfl
  exact general items [] start rfl initially

end Ends

lemma Ends.outcome {run : Bounded Error Value} {condition : Prop}
    (ends : run.Ends False (fun _ => condition) fun _ => ¬ condition) :
    ∃ outcome, ExceptT.run run = some outcome ∧
      ((∃ error, outcome = .error error) ↔ condition) := by
  unfold Ends at ends
  cases ended : ExceptT.run run with
  | none =>
    rw [ended] at ends
    exact ends.elim
  | some outcome =>
    rw [ended] at ends
    refine ⟨outcome, rfl, ?_⟩
    cases outcome with
    | error error => exact ⟨fun _ => ends, fun _ => ⟨error, rfl⟩⟩
    | ok value => exact ⟨nofun, fun holds => absurd holds ends⟩

end Bounded
end Ecclesia
