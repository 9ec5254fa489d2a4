import Ecclesia.Library.Bounded
import Mathlib.Data.List.Forall2

namespace Ecclesia.Bounded

/-!
# Runs in lockstep

Two runs are in lockstep when they end in the same way, and what they fail with or return is
related.  The rules follow the way in which both runs are composed, so that a relation has to
be shown for one turn of a loop only.
-/

variable {ErrorA ErrorB ValueA ValueB ResultA ResultB ItemA ItemB StateA StateB : Type}

/-- Two runs end in the same way. -/
def Lockstep (first : Bounded ErrorA ValueA) (second : Bounded ErrorB ValueB)
    (errors : ErrorA -> ErrorB -> Prop) (values : ValueA -> ValueB -> Prop) : Prop :=
  match ExceptT.run first, ExceptT.run second with
  | none, none => True
  | some (.error a), some (.error b) => errors a b
  | some (.ok a), some (.ok b) => values a b
  | _, _ => False

namespace Lockstep

variable {first : Bounded ErrorA ValueA} {second : Bounded ErrorB ValueB}
  {errors : ErrorA -> ErrorB -> Prop} {values : ValueA -> ValueB -> Prop}

lemma pure {a : ValueA} {b : ValueB} (related : values a b) :
    (Pure.pure a : Bounded ErrorA ValueA).Lockstep (Pure.pure b : Bounded ErrorB ValueB) errors
      values :=
  related

lemma throw {a : ErrorA} {b : ErrorB} (related : errors a b) :
    (MonadExcept.throw a : Bounded ErrorA ValueA).Lockstep
      (MonadExcept.throw b : Bounded ErrorB ValueB) errors values :=
  related

lemma exhausted :
    (.exhausted : Bounded ErrorA ValueA).Lockstep
      (.exhausted : Bounded ErrorB ValueB) errors values :=
  trivial

section

variable (together : first.Lockstep second errors values)

include together

lemma ends :
    (ExceptT.run first = none ∧ ExceptT.run second = none) ∨
      (∃ a b, ExceptT.run first = some (.error a) ∧ ExceptT.run second = some (.error b) ∧
        errors a b) ∨
      (∃ a b, ExceptT.run first = some (.ok a) ∧ ExceptT.run second = some (.ok b) ∧
        values a b) := by
  unfold Lockstep at together
  split at together
  next a b => exact .inl ⟨a, b⟩
  next a b => exact .inr (.inl ⟨_, _, a, b, together⟩)
  next a b => exact .inr (.inr ⟨_, _, a, b, together⟩)
  next => exact together.elim

lemma bind {nextA : ValueA -> Bounded ErrorA ResultA} {nextB : ValueB -> Bounded ErrorB ResultB}
    {results : ResultA -> ResultB -> Prop}
    (next : ∀ a b, values a b -> (nextA a).Lockstep (nextB b) errors results) :
    (first >>= nextA).Lockstep (second >>= nextB) errors results := by
  have bindA := ExceptT.run_bind first nextA
  have bindB := ExceptT.run_bind second nextB
  rcases together.ends with ⟨a, b⟩ | ⟨_, _, a, b, related⟩ | ⟨_, _, a, b, related⟩
  · rw [a] at bindA
    rw [b] at bindB
    unfold Lockstep
    rw [bindA, bindB]
    exact trivial
  · rw [a] at bindA
    rw [b] at bindB
    unfold Lockstep
    rw [bindA, bindB]
    exact related
  · rw [a] at bindA
    rw [b] at bindB
    unfold Lockstep
    rw [bindA, bindB]
    exact next _ _ related

/-- Less can be said about both ends. -/
lemma weaken {errorsAfter : ErrorA -> ErrorB -> Prop} {valuesAfter : ValueA -> ValueB -> Prop}
    (onErrors : ∀ a b, errors a b -> errorsAfter a b)
    (onValues : ∀ a b, values a b -> valuesAfter a b) :
    first.Lockstep second errorsAfter valuesAfter := by
  unfold Lockstep
  rcases together.ends with ⟨a, b⟩ | ⟨_, _, a, b, related⟩ | ⟨_, _, a, b, related⟩
  · rw [a, b]
    exact trivial
  · rw [a, b]
    exact onErrors _ _ related
  · rw [a, b]
    exact onValues _ _ related

end

/-- Two loops over related items keep a relation between their states. -/
lemma foldlM {bodyA : StateA -> ItemA -> Bounded ErrorA StateA}
    {bodyB : StateB -> ItemB -> Bounded ErrorB StateB} {items : ItemA -> ItemB -> Prop}
    {states : StateA -> StateB -> Prop}
    (step : ∀ stateA stateB itemA itemB, states stateA stateB -> items itemA itemB ->
      (bodyA stateA itemA).Lockstep (bodyB stateB itemB) errors states)
    {itemsA : List ItemA} {itemsB : List ItemB} (together : List.Forall₂ items itemsA itemsB) :
    ∀ {startA : StateA} {startB : StateB}, states startA startB ->
      (itemsA.foldlM bodyA startA).Lockstep (itemsB.foldlM bodyB startB) errors states := by
  induction together with
  | nil =>
    intro startA startB related
    exact .pure related
  | cons item rest ih =>
    intro startA startB related
    apply bind (step startA startB _ _ related item)
    intro afterA afterB relatedAfter
    exact ih relatedAfter

end Lockstep
end Ecclesia.Bounded
