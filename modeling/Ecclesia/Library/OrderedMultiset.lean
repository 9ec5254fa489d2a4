import Mathlib.Order.Lattice
import Mathlib.Data.List.Basic

namespace Ecclesia

open List

/-!
# Multisets in the order of a key

A multiset with an order on a key of its elements is kept as the list of its elements
in their order of iteration.  An element is inserted behind all elements with the same
key, so that elements with one key stay in the order in which they were inserted.
-/

namespace OrderedMultiset

variable {Item Key : Type} [LinearOrder Key] (key : Item -> Key)

/-- Insert behind all elements with a key that is not greater. -/
def insert (item : Item) : List Item -> List Item
  | [] => [item]
  | current :: rest =>
    if key item < key current then item :: current :: rest else current :: insert item rest

/-- The order of iteration. -/
def Ordered (items : List Item) : Prop :=
  items.Pairwise fun earlier later => key earlier <= key later

/-- The elements with a key, in their order of iteration. -/
def withKey (wanted : Key) (items : List Item) : List Item :=
  items.filter fun item => key item = wanted

variable {items : List Item}

lemma mem_insert {item other : Item} :
    other ∈ insert key item items ↔ other = item ∨ other ∈ items := by
  induction items with
  | nil => simp [insert]
  | cons current rest ih =>
    rw [insert]
    split_ifs with before
    · simp
    · rw [mem_cons, ih, mem_cons]
      exact or_left_comm

lemma length_insert (item : Item) (items : List Item) :
    (insert key item items).length = items.length + 1 := by
  induction items with
  | nil => rfl
  | cons current rest ih =>
    rw [insert]
    split_ifs with before
    · rfl
    · rw [length_cons, ih, length_cons]

lemma ordered_insert (item : Item) (ordered : Ordered key items) :
    Ordered key (insert key item items) := by
  induction items with
  | nil => exact pairwise_singleton _ item
  | cons current rest ih =>
    rcases pairwise_cons.mp ordered with ⟨first, orderedRest⟩
    rw [insert]
    split_ifs with before
    · refine pairwise_cons.mpr ⟨?_, ordered⟩
      intro other member
      rcases mem_cons.mp member with rfl | later
      · exact le_of_lt before
      · exact le_trans (le_of_lt before) (first other later)
    · refine pairwise_cons.mpr ⟨?_, ih orderedRest⟩
      intro other member
      rcases (mem_insert key).mp member with rfl | later
      · exact not_lt.mp before
      · exact first other later

lemma withKey_insert (item : Item) (ordered : Ordered key items) (wanted : Key) :
    withKey key wanted (insert key item items) =
      withKey key wanted items ++ withKey key wanted [item] := by
  induction items with
  | nil => rfl
  | cons current rest ih =>
    rcases pairwise_cons.mp ordered with ⟨first, orderedRest⟩
    rw [insert]
    split_ifs with before
    · by_cases isWanted : key item = wanted
      · -- All elements come later than the inserted one, so none has its key.
        have none : withKey key wanted (current :: rest) = [] := by
          apply filter_eq_nil_iff.mpr
          intro other member
          have after : key item < key other := by
            rcases mem_cons.mp member with rfl | later
            · exact before
            · exact lt_of_lt_of_le before (first other later)
          simpa [<- isWanted] using ne_of_gt after
        rw [none, nil_append]
        have split : withKey key wanted (item :: current :: rest) =
            withKey key wanted [item] ++ withKey key wanted (current :: rest) :=
          filter_append [item] (current :: rest)
        rw [split, none, append_nil]
      · simp [withKey, isWanted]
    · have split : ∀ tail, withKey key wanted (current :: tail) =
          withKey key wanted [current] ++ withKey key wanted tail :=
        fun tail => filter_append [current] tail
      rw [split (insert key item rest), split rest, ih orderedRest, append_assoc]

end OrderedMultiset
end Ecclesia
