import Mathlib.Data.List.Basic
import Mathlib.Logic.Function.Iterate

namespace Ecclesia

open List

/-!
# Rounds over waiting items

A list of items is run through again and again.  An item that can be settled from the state
is settled, which changes the state, and every other item waits for a later round.  The
rounds end with the first one that settles nothing.

What holds of the states and what they record of the settled items is kept by all rounds, and
in the end no waiting item can be settled.
-/

/-- An item, with its result once it is settled. -/
structure Slot (Item Result : Type) where
  item : Item
  result : Option Result
deriving DecidableEq, Repr

def Slot.waiting {Item Result : Type} (item : Item) : Slot Item Result := ⟨item, none⟩

lemma Slot.map_item_waiting {Item Result : Type} (items : List Item) :
    (items.map (@Slot.waiting Item Result)).map Slot.item = items := by
  rw [map_map]
  exact map_id items

/-- How an item is settled from a state, if it can be. -/
structure Rounds (State Item Result : Type) where
  settle : State -> Item -> Option (State × Result)

namespace Rounds

variable {State Item Result : Type}

def settled (slots : List (Slot Item Result)) : Nat :=
  slots.countP fun slot => slot.result.isSome

variable (rounds : Rounds State Item Result)

def visit (state : State) (slot : Slot Item Result) : State × Slot Item Result :=
  match slot.result with
  | some _ => (state, slot)
  | none =>
    match rounds.settle state slot.item with
    | none => (state, slot)
    | some (after, result) => (after, ⟨slot.item, some result⟩)

def round : State -> List (Slot Item Result) -> State × List (Slot Item Result)
  | state, [] => (state, [])
  | state, slot :: slots =>
    let visited := rounds.visit state slot
    let rest := round visited.1 slots
    (rest.1, visited.2 :: rest.2)

lemma visit_cases (state : State) (slot : Slot Item Result) :
    (rounds.visit state slot = (state, slot) ∧
      (slot.result = none -> rounds.settle state slot.item = none)) ∨
    ∃ after result, slot.result = none ∧
      rounds.settle state slot.item = some (after, result) ∧
      rounds.visit state slot = (after, ⟨slot.item, some result⟩) := by
  cases before : slot.result with
  | some result =>
    left
    constructor
    · unfold visit
      rw [before]
    · intro waits
      cases waits
  | none =>
    cases settles : rounds.settle state slot.item with
    | none =>
      left
      constructor
      · unfold visit
        rw [before]
        rw [settles]
      · exact fun _ => rfl
    | some found =>
      right
      refine ⟨found.1, found.2, rfl, rfl, ?_⟩
      unfold visit
      rw [before]
      rw [settles]

lemma item_visit (state : State) (slot : Slot Item Result) :
    (rounds.visit state slot).2.item = slot.item := by
  rcases rounds.visit_cases state slot with ⟨unchanged, _⟩ | ⟨after, result, _, _, changed⟩
  · rw [unchanged]
  · rw [changed]

lemma items_round (slots : List (Slot Item Result)) : ∀ state,
    (rounds.round state slots).2.map Slot.item = slots.map Slot.item := by
  induction slots with
  | nil =>
    intro state
    rfl
  | cons slot rest ih =>
    intro state
    rw [round, map_cons, map_cons, item_visit, ih]

lemma length_round (state : State) (slots : List (Slot Item Result)) :
    (rounds.round state slots).2.length = slots.length := by
  have same := congrArg List.length (rounds.items_round slots state)
  rw [length_map, length_map] at same
  exact same

lemma settled_cons (slot : Slot Item Result) (slots : List (Slot Item Result)) :
    settled (slot :: slots) = settled slots + if slot.result.isSome then 1 else 0 :=
  countP_cons

/-- A round settles no fewer items than there were, and if it settles no more, then nothing
could be settled. -/
lemma round_settled (slots : List (Slot Item Result)) : ∀ state,
    settled slots <= settled (rounds.round state slots).2 ∧
      (settled (rounds.round state slots).2 = settled slots ->
        rounds.round state slots = (state, slots) ∧
          ∀ slot ∈ slots, slot.result = none -> rounds.settle state slot.item = none) := by
  induction slots with
  | nil =>
    intro state
    refine ⟨Nat.le_refl _, fun _ => ⟨rfl, ?_⟩⟩
    exact forall_mem_nil _
  | cons slot rest ih =>
    intro state
    rw [round]
    rw [settled_cons, settled_cons]
    rcases rounds.visit_cases state slot with
      ⟨unchanged, stuck⟩ | ⟨after, result, waits, _, changed⟩
    · rw [unchanged]
      rcases ih state with ⟨grows, ends⟩
      refine ⟨Nat.add_le_add_right grows _, ?_⟩
      intro same
      rcases ends (Nat.add_right_cancel same) with ⟨sameRest, stuckRest⟩
      constructor
      · rw [sameRest]
      · intro other member waits
        rcases mem_cons.mp member with rfl | inside
        · exact stuck waits
        · exact stuckRest other inside waits
    · rw [changed, waits]
      have grows := (ih after).1
      simp only [Option.isSome_some, Option.isSome_none, if_true, Bool.false_eq_true, if_false]
      constructor
      · omega
      · intro same
        omega

/-- The rounds, up to the first one that settles nothing. -/
def run (state : State) (slots : List (Slot Item Result)) : State × List (Slot Item Result) :=
  if settled slots < settled (rounds.round state slots).2 then
    run (rounds.round state slots).1 (rounds.round state slots).2
  else rounds.round state slots
termination_by slots.length - settled slots
decreasing_by
  have bounded : settled (rounds.round state slots).2 <= (rounds.round state slots).2.length :=
    List.countP_le_length
  have sameLength := rounds.length_round state slots
  omega

/-- One round, as a function of all that the loop changes. -/
def turn (loop : State × List (Slot Item Result)) : State × List (Slot Item Result) :=
  rounds.round loop.1 loop.2

lemma run_eq_iterate (state : State) (slots : List (Slot Item Result)) :
    ∃ count, count <= slots.length - settled slots + 1 ∧
      rounds.run state slots = rounds.turn^[count] (state, slots) := by
  fun_induction Rounds.run rounds state slots with
  | case1 state slots progress ih =>
    rcases ih with ⟨count, bounded, ends⟩
    refine ⟨count + 1, ?_, ends⟩
    have few : settled (rounds.round state slots).2 <= (rounds.round state slots).2.length :=
      countP_le_length
    have sameLength := rounds.length_round state slots
    omega
  | case2 state slots ended => exact ⟨1, Nat.le_add_left 1 _, rfl⟩

lemma items_run (state : State) (slots : List (Slot Item Result)) :
    (rounds.run state slots).2.map Slot.item = slots.map Slot.item := by
  fun_induction Rounds.run rounds state slots with
  | case1 state slots progress ih =>
    rw [ih]
    exact rounds.items_round slots state
  | case2 state slots ended => exact rounds.items_round slots state

variable {rounds : Rounds State Item Result} {Holds : State -> Prop}
  {Recorded : State -> Item -> Result -> Prop}

/-- What holds of a state, and what it records of the items that have been settled. -/
structure Kept (Holds : State -> Prop) (Recorded : State -> Item -> Result -> Prop)
    (state : State) (slots : List (Slot Item Result)) : Prop where
  holds : Holds state
  recorded : ∀ slot ∈ slots, ∀ result, slot.result = some result -> Recorded state slot.item result

/-- To settle an item of a list keeps what holds, records the item and forgets none. -/
def Records (rounds : Rounds State Item Result) (items : List Item) (Holds : State -> Prop)
    (Recorded : State -> Item -> Result -> Prop) : Prop :=
  ∀ state item after result, item ∈ items -> Holds state ->
    rounds.settle state item = some (after, result) ->
    Holds after ∧ Recorded after item result ∧
      ∀ other found, Recorded state other found -> Recorded after other found

lemma Records.round {slots : List (Slot Item Result)} : ∀ {state : State},
    rounds.Records (slots.map Slot.item) Holds Recorded -> Kept Holds Recorded state slots ->
    Kept Holds Recorded (rounds.round state slots).1 (rounds.round state slots).2 ∧
      ∀ other found, Recorded state other found ->
        Recorded (rounds.round state slots).1 other found := by
  induction slots with
  | nil =>
    intro state records kept
    exact ⟨kept, fun _ _ => id⟩
  | cons slot rest ih =>
    intro state records kept
    have recordsRest : rounds.Records (rest.map Slot.item) Holds Recorded := by
      intro before item after result member
      exact records before item after result (mem_cons_of_mem slot.item member)
    -- what one visit keeps, with the rest of the list behind it
    have visited : Holds (rounds.visit state slot).1 ∧
        (∀ result, (rounds.visit state slot).2.result = some result ->
          Recorded (rounds.visit state slot).1 slot.item result) ∧
        ∀ other found, Recorded state other found ->
          Recorded (rounds.visit state slot).1 other found := by
      rcases rounds.visit_cases state slot with
        ⟨unchanged, _⟩ | ⟨after, result, _, settles, changed⟩
      · rw [unchanged]
        exact ⟨kept.holds, kept.recorded slot (.head _), fun _ _ => id⟩
      · rcases records state slot.item after result (.head _) kept.holds settles with
          ⟨holds, recorded, forgetsNone⟩
        rw [changed]
        refine ⟨holds, ?_, forgetsNone⟩
        intro found isFound
        cases isFound
        exact recorded
    rcases visited with ⟨holds, recorded, forgetsNone⟩
    have keptRest : Kept Holds Recorded (rounds.visit state slot).1 rest := by
      refine ⟨holds, ?_⟩
      intro other member result isResult
      exact forgetsNone _ _ (kept.recorded other (mem_cons_of_mem slot member) result isResult)
    rcases ih recordsRest keptRest with ⟨after, forgetsNoneAfter⟩
    refine ⟨⟨after.holds, ?_⟩, ?_⟩
    · intro other member result isResult
      rcases mem_cons.mp member with rfl | inside
      · rw [item_visit]
        exact forgetsNoneAfter _ _ (recorded result isResult)
      · exact after.recorded other inside result isResult
    · intro other found isRecorded
      exact forgetsNoneAfter other found (forgetsNone other found isRecorded)

lemma Records.run {state : State} {slots : List (Slot Item Result)}
    (records : rounds.Records (slots.map Slot.item) Holds Recorded)
    (kept : Kept Holds Recorded state slots) :
    Kept Holds Recorded (rounds.run state slots).1 (rounds.run state slots).2 ∧
      ∀ slot ∈ (rounds.run state slots).2, slot.result = none ->
        rounds.settle (rounds.run state slots).1 slot.item = none := by
  fun_induction Rounds.run rounds state slots with
  | case1 state slots progress ih =>
    apply ih
    · rw [rounds.items_round]
      exact records
    · exact (records.round kept).1
  | case2 state slots ended =>
    rcases rounds.round_settled slots state with ⟨grows, ends⟩
    rcases ends (Nat.le_antisymm (Nat.le_of_not_lt ended) grows) with ⟨same, stuck⟩
    rw [same]
    exact ⟨kept, stuck⟩

lemma Records.run_waiting {state : State} {items : List Item}
    (records : rounds.Records items Holds Recorded) (holds : Holds state) :
    Kept Holds Recorded (rounds.run state (items.map .waiting)).1
        (rounds.run state (items.map .waiting)).2 ∧
      ∀ slot ∈ (rounds.run state (items.map .waiting)).2, slot.result = none ->
        rounds.settle (rounds.run state (items.map .waiting)).1 slot.item = none := by
  apply Records.run
  · rw [Slot.map_item_waiting]
    exact records
  · refine ⟨holds, ?_⟩
    intro slot member result isResult
    rcases mem_map.mp member with ⟨item, _, rfl⟩
    cases isResult

end Rounds

lemma Slot.perm_of_items {Item Result : Type} {slots : List (Slot Item Result)} :
    ∀ {others : List (Slot Item Result)},
      (others.map Slot.item).Perm (slots.map Slot.item) ->
      (∀ first second, first ∈ others -> second ∈ slots -> first.item = second.item ->
        first.result = second.result) ->
      others.Perm slots := by
  induction slots with
  | nil =>
    intro others items _
    rw [map_eq_nil_iff.mp items.eq_nil]
  | cons slot rest ih =>
    intro others items same
    have listed : slot.item ∈ others.map Slot.item := items.mem_iff.mpr (.head _)
    rcases mem_map.mp listed with ⟨first, isFirst, sameItem⟩
    have sameSlot : first = slot := by
      cases first with
      | mk item result =>
        cases slot with
        | mk item' result' =>
          have sameResult := same _ _ isFirst (.head _) sameItem
          cases sameItem
          cases sameResult
          rfl
    subst sameSlot
    rcases append_of_mem isFirst with ⟨before, after, rfl⟩
    have moved : (before ++ first :: after).Perm (first :: (before ++ after)) := perm_middle
    have itemsRest : ((before ++ after).map Slot.item).Perm (rest.map Slot.item) :=
      ((moved.symm.map Slot.item).trans items).cons_inv
    apply moved.trans
    apply List.Perm.cons
    apply ih itemsRest
    intro other second isOther isSecond
    exact same other second (moved.mem_iff.mpr (mem_cons_of_mem first isOther))
      (mem_cons_of_mem first isSecond)

end Ecclesia
