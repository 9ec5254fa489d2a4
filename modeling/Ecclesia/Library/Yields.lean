import Mathlib.Data.List.Basic

namespace Ecclesia

/-!
# Actions with a fixed answer

An action on a state may change the state and still give the same answer from
every state.  Such actions compose, and so do bounds on what they change.
-/

/-- A bound on changes of a state. -/
structure Keeping (State : Type) where
  Holds : State -> State -> Prop
  refl : ∀ state, Holds state state
  trans : ∀ {first second third}, Holds first second -> Holds second third -> Holds first third

/-- The bound that permits every change. -/
def Keeping.anything (State : Type) : Keeping State :=
  ⟨fun _ _ => True, fun _ => trivial, fun _ _ => trivial⟩

variable {State First Second : Type} {keeping : Keeping State}

/-- The action gives this answer from every state, and changes the state within
the bound. -/
def Yields (keeping : Keeping State) (action : StateM State First) (value : First) : Prop :=
  ∀ state, (action state).1 = value ∧ keeping.Holds state (action state).2

variable {next : First -> StateM State Second} {action : StateM State First}

namespace Yields

lemma pure (value : First) : Yields keeping (.pure value : StateM State First) value :=
  fun state => ⟨rfl, keeping.refl state⟩

lemma bind {value : First} {result : Second} (first : Yields keeping action value)
    (second : Yields keeping (next value) result) : Yields keeping (action >>= next) result := by
  intro state
  have before := first state
  have after := second (action state).2
  change (next (action state).1 (action state).2).1 = result ∧
    keeping.Holds state (next (action state).1 (action state).2).2
  rw [before.1]
  exact ⟨after.1, keeping.trans before.2 after.2⟩

/-- A fixed answer can be filled in, whatever is said about the end of an action. -/
lemma bind_ends {value : First} (Ends : State -> Prop)
    (first : Yields keeping action value) (second : ∀ state, Ends (next value state).2)
    (state : State) : Ends ((action >>= next) state).2 := by
  change Ends (next (action state).1 (action state).2).2
  rw [(first state).1]
  exact second _

end Yields

/-- The action changes the state within the bound, whatever it answers. -/
def Within (keeping : Keeping State) (action : StateM State First) : Prop :=
  ∀ state, keeping.Holds state (action state).2

namespace Within

lemma pure (value : First) : Within keeping (.pure value : StateM State First) :=
  fun state => keeping.refl state

lemma bind (first : Within keeping action) (second : ∀ value, Within keeping (next value)) :
    Within keeping (action >>= next) :=
  fun state => keeping.trans (first state) (second (action state).1 (action state).2)

end Within

end Ecclesia
