import Mathlib.Data.List.Infix

namespace Ecclesia

open List

/-!
# Visitors that may stop

A visitor sees the items of a list in order, until it answers that it has seen enough.
It may keep a state.  A list that is put together from parts is visited part by part, and
a visitor that writes down what it sees has seen a prefix of the list.
-/

/-- What a visitor answers. -/
inductive Signal where
  | proceed
  | stop
deriving DecidableEq, Repr

variable {Item Part State : Type}

def visitUntil (visit : Item -> State -> Signal × State) : List Item -> State -> Signal × State
  | [], state => (.proceed, state)
  | item :: rest, state =>
    match visit item state with
    | (.stop, after) => (.stop, after)
    | (.proceed, after) => visitUntil visit rest after

variable (visit : Item -> State -> Signal × State)

lemma visitUntil_append (first second : List Item) :
    ∀ state, visitUntil visit (first ++ second) state =
      match visitUntil visit first state with
      | (.stop, after) => (.stop, after)
      | (.proceed, after) => visitUntil visit second after := by
  induction first with
  | nil => exact fun state => rfl
  | cons item rest ih =>
    intro state
    rw [cons_append, visitUntil, visitUntil]
    rcases visit item state with ⟨signal, after⟩
    cases signal with
    | stop => rfl
    | proceed => exact ih after

lemma visitUntil_flatMap (items : Part -> List Item) (parts : List Part) : ∀ state,
    visitUntil visit (parts.flatMap items) state =
      visitUntil (fun part => visitUntil visit (items part)) parts state := by
  induction parts with
  | nil => exact fun state => rfl
  | cons part rest ih =>
    intro state
    rw [flatMap_cons, visitUntil_append, visitUntil]
    rcases visitUntil visit (items part) state with ⟨signal, after⟩
    cases signal with
    | stop => rfl
    | proceed => exact ih after

/-- The visitor that writes down every item it is called with. -/
def recorded (item : Item) (state : State × List Item) :
    Signal × (State × List Item) :=
  match visit item state.1 with
  | (signal, after) => (signal, (after, state.2 ++ [item]))

/-- The record grows by a prefix of the list, all of it if the visitor never stops, and by something
if there is something. -/
lemma visitUntil_recorded (items : List Item) :
    ∀ (state : State) (log : List Item), ∃ seen,
      (visitUntil (recorded visit) items (state, log)).2.2 = log ++ seen ∧ seen <+: items ∧
      ((visitUntil (recorded visit) items (state, log)).1 = .proceed -> seen = items) ∧
      (seen = [] -> items = []) := by
  induction items with
  | nil =>
    intro state log
    exact ⟨[], (append_nil log).symm, prefix_rfl, fun _ => rfl, fun _ => rfl⟩
  | cons item rest ih =>
    intro state log
    rw [visitUntil, recorded]
    rcases visit item state with ⟨signal, after⟩
    cases signal with
    | stop =>
      refine ⟨[item], rfl, prefix_append [item] rest, ?_, ?_⟩
      · intro impossible
        cases impossible
      · exact fun impossible => absurd impossible (cons_ne_nil item [])
    | proceed =>
      rcases ih after (log ++ [item]) with ⟨seen, appended, within, all, _⟩
      refine ⟨item :: seen, ?_, (cons_prefix_cons).mpr ⟨rfl, within⟩, ?_, ?_⟩
      · rw [appended, append_assoc]
        rfl
      · exact fun unstopped => congrArg (item :: ·) (all unstopped)
      · exact fun impossible => absurd impossible (cons_ne_nil item seen)

/-- A visitor is called unless there is nothing to see. -/
lemma record_eq_iff_nil (items : List Item) (state : State) (log : List Item) :
    (visitUntil (recorded visit) items (state, log)).2.2 = log ↔ items = [] := by
  constructor
  · intro same
    rcases visitUntil_recorded visit items state log with ⟨seen, appended, _, _, none⟩
    rw [same] at appended
    exact none (append_right_eq_self.mp appended.symm)
  · rintro rfl
    rfl

end Ecclesia
