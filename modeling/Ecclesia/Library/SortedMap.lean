import Mathlib.Data.List.Sort

namespace Ecclesia.Library

open List
open Prod (fst)

/-!
# Maps in the order of their keys

The entries of such a map are listed in the order of their keys, so a map has one list.  The entries
of any list with distinct keys can be entered one by one, and it does not matter in which order.
-/

variable {Key Value : Type} [LinearOrder Key]

def Ascending (entries : List (Key × Value)) : Prop :=
  entries.Pairwise fun first second => first.1 < second.1

/-- Enter a value at its place, or give a new value to a key that is there. -/
def insertSorted (key : Key) (value : Value) : List (Key × Value) -> List (Key × Value)
  | [] => [(key, value)]
  | (other, current) :: rest =>
    if key < other then (key, value) :: (other, current) :: rest
    else if key = other then (key, value) :: rest
    else (other, current) :: insertSorted key value rest

def insertAll (entries : List (Key × Value)) (added : List (Key × Value)) : List (Key × Value) :=
  added.foldl (fun map entry => insertSorted entry.1 entry.2 map) entries

lemma insertSorted_perm {key : Key} {value : Value} {entries : List (Key × Value)}
    (absent : key ∉ entries.map fst) :
    (insertSorted key value entries).Perm ((key, value) :: entries) := by
  induction entries with
  | nil => exact .refl _
  | cons entry rest ih =>
    rcases entry with ⟨other, current⟩
    rw [map_cons, mem_cons, not_or] at absent
    rw [insertSorted]
    split
    · exact .refl _
    · rw [if_neg absent.1]
      exact ((ih absent.2).cons _).trans (.swap ..)

variable {entries : List (Key × Value)}

lemma mem_insertSorted {key : Key} {value : Value} {entry : Key × Value}
    (member : entry ∈ insertSorted key value entries) : entry = (key, value) ∨ entry ∈ entries := by
  induction entries with
  | nil => exact .inl (mem_singleton.mp member)
  | cons first rest ih =>
    rcases first with ⟨other, current⟩
    rw [insertSorted] at member
    split at member
    · exact mem_cons.mp member
    · split at member
      · rcases mem_cons.mp member with isNew | old
        · exact .inl isNew
        · exact .inr (.tail _ old)
      · rcases mem_cons.mp member with isFirst | later
        · exact .inr (isFirst ▸ (.head _))
        · rcases ih later with isNew | old
          · exact .inl isNew
          · exact .inr (.tail _ old)

lemma ascending_insertSorted {key : Key} {value : Value}
    (ascending : Ascending entries) : Ascending (insertSorted key value entries) := by
  induction entries with
  | nil => exact pairwise_singleton ..
  | cons first rest ih =>
    rcases first with ⟨other, current⟩
    rcases pairwise_cons.mp ascending with ⟨smallest, restAscending⟩
    rw [insertSorted]
    split
    · rename_i before
      refine pairwise_cons.mpr ⟨?_, ascending⟩
      intro entry member
      rcases mem_cons.mp member with rfl | later
      · exact before
      · exact lt_trans before (smallest entry later)
    · rename_i notBefore
      split
      · rename_i same
        subst same
        exact pairwise_cons.mpr ⟨smallest, restAscending⟩
      · rename_i different
        refine pairwise_cons.mpr ⟨?_, ih restAscending⟩
        intro entry member
        rcases mem_insertSorted member with rfl | old
        · exact lt_of_le_of_ne (not_lt.mp notBefore) (.symm different)
        · exact smallest entry old

lemma ascending_insertAll {added : List (Key × Value)} (ascending : Ascending entries) :
    Ascending (insertAll entries added) := by
  induction added generalizing entries with
  | nil => exact ascending
  | cons first rest ih => exact ih (ascending_insertSorted ascending)

lemma insertAll_perm {added : List (Key × Value)} (distinct : (added.map fst).Nodup)
    (absent : ∀ key ∈ added.map fst, key ∉ entries.map fst) :
    (insertAll entries added).Perm (added ++ entries) := by
  induction added generalizing entries with
  | nil => exact .refl _
  | cons first rest ih =>
    rcases first with ⟨key, value⟩
    rw [map_cons, nodup_cons] at distinct
    have newKey : key ∉ entries.map fst := absent key (.head _)
    have inserted := @insertSorted_perm _ _ _ key value entries newKey
    have keysAfter : ∀ other ∈ rest.map fst, other ∉ (insertSorted key value entries).map fst := by
      intro other member isThere
      rcases mem_cons.mp ((inserted.map fst).mem_iff.mp isThere) with rfl | old
      · exact distinct.1 member
      · exact absent other (.tail _ member) old
    exact (ih distinct.2 keysAfter).trans ((inserted.append_left rest).trans perm_middle)

variable {second : List (Key × Value)}

lemma Ascending.eq_of_perm {first : List (Key × Value)} (isFirst : Ascending first)
    (isSecond : Ascending second) (perm : first.Perm second) : first = second := by
  refine perm.eq_of_pairwise ?_ isFirst isSecond
  intro left right _ _ before after
  exact absurd (lt_trans before after) (lt_irrefl _)

lemma Ascending.nodup (ascending : Ascending entries) : (entries.map fst).Nodup := by
  refine pairwise_map.mpr (ascending.imp ?_)
  intro first second before
  exact ne_of_lt before

lemma insertAll_ascending (ascending : Ascending entries) : insertAll [] entries = entries := by
  refine (ascending_insertAll Pairwise.nil).eq_of_perm ascending ?_
  have perm : (insertAll [] entries).Perm (entries ++ []) :=
    insertAll_perm ascending.nodup (fun _ _ => not_mem_nil)
  rwa [append_nil] at perm

lemma insertAll_congr {first : List (Key × Value)} (perm : first.Perm second)
    (distinct : (first.map fst).Nodup) : insertAll [] first = insertAll [] second := by
  have distinctSecond := (perm.map fst).nodup_iff.mp distinct
  refine (ascending_insertAll Pairwise.nil).eq_of_perm (ascending_insertAll Pairwise.nil) ?_
  have isFirst : (insertAll [] first).Perm (first ++ []) :=
    insertAll_perm distinct (fun _ _ => not_mem_nil)
  have isSecond : (insertAll [] second).Perm (second ++ []) :=
    insertAll_perm distinctSecond (fun _ _ => not_mem_nil)
  rw [append_nil] at isFirst isSecond
  exact isFirst.trans (perm.trans isSecond.symm)

end Ecclesia.Library
