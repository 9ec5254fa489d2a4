import Ecclesia.Library.Assoc
import Mathlib.Data.List.Perm.Basic

namespace Ecclesia

open List

/-!
# Grouping by a key

Items are put into a map of lists, each under its key.  The list under a key has the items
with this key in their order, and the lists under all keys have every item once.
-/

variable {Key Item : Type}

section

variable [DecidableEq Key] (key : Item -> Key)

lemma flatMap_group_cons (item : Item) (groups : Key -> List Item) : ∀ {keys : List Key},
    keys.Nodup -> key item ∈ keys ->
      (keys.flatMap fun group => if key item = group then item :: groups group else groups group).Perm
        (item :: keys.flatMap groups) := by
  intro keys
  induction keys with
  | nil =>
    intro _ member
    cases member
  | cons group rest ih =>
    intro distinct member
    rcases nodup_cons.mp distinct with ⟨absent, distinctRest⟩
    rw [flatMap_cons]
    by_cases same : key item = group
    · have others : (rest.flatMap fun other =>
          if key item = other then item :: groups other else groups other) = rest.flatMap groups := by
        apply flatMap_congr
        intro other isOther
        apply if_neg
        rintro rfl
        exact absent (same ▸ isOther)
      rw [if_pos same, others]
      exact .refl _
    · have later : key item ∈ rest := (mem_cons.mp member).resolve_left same
      rw [if_neg same]
      exact ((ih distinctRest later).append_left (groups group)).trans perm_middle

lemma flatMap_groups_perm {keys : List Key} (distinct : keys.Nodup) {items : List Item}
    (covered : ∀ item ∈ items, key item ∈ keys) :
    (keys.flatMap fun group => items.filter fun item => key item = group).Perm items := by
  induction items with
  | nil =>
    apply List.Perm.of_eq
    apply flatMap_eq_nil_iff.mpr
    intro group _
    rfl
  | cons item rest ih =>
    have grouped : (keys.flatMap fun group => (item :: rest).filter fun other => key other = group) =
        keys.flatMap fun group =>
          if key item = group then item :: rest.filter fun other => key other = group
          else rest.filter fun other => key other = group := by
      apply flatMap_congr
      intro group _
      rw [filter_cons]
      simp only [decide_eq_true_eq]
    rw [grouped]
    have first := flatMap_group_cons key item
      (fun group => rest.filter fun other => key other = group) distinct
      (covered item (.head _))
    apply first.trans
    apply List.Perm.cons
    apply ih
    intro other isOther
    exact covered other (mem_cons_of_mem item isOther)

end

namespace HashMap

variable [BEq Key] [LawfulBEq Key]

lemma keys_pushBack (map : HashMap Key (List Item)) (key : Key) (item : Item) :
    (map.pushBack key item).keys = if key ∈ map.keys then map.keys else map.keys ++ [key] :=
  keys_insertOrAssign key _ map.entries

lemma keys_foldl_pushBack (key : Item -> Key) (items : List Item) :
    ∀ map : HashMap Key (List Item),
      (items.foldl (fun map item => map.pushBack (key item) item) map).keys =
        (items.map key).foldl
          (fun keys group => if group ∈ keys then keys else keys ++ [group]) map.keys := by
  induction items with
  | nil =>
    intro map
    rfl
  | cons item rest ih =>
    intro map
    rw [foldl_cons, ih, keys_pushBack, map_cons, foldl_cons]

lemma mem_keys_foldl_pushBack (key : Item -> Key) (group : Key) (items : List Item) :
    ∀ map : HashMap Key (List Item),
      group ∈ (items.foldl (fun map item => map.pushBack (key item) item) map).keys ↔
        group ∈ map.keys ∨ group ∈ items.map key := by
  induction items with
  | nil =>
    intro map
    simp
  | cons item rest ih =>
    intro map
    rw [foldl_cons, ih, mem_keys_pushBack, map_cons, mem_cons]
    constructor
    · rintro ((same | before) | later)
      · exact .inr (.inl same)
      · exact .inl before
      · exact .inr (.inr later)
    · rintro (before | same | later)
      · exact .inl (.inr before)
      · exact .inl (.inl same)
      · exact .inr later

lemma listAt_foldl_pushBack [DecidableEq Key] (key : Item -> Key) (group : Key)
    (items : List Item) : ∀ map : HashMap Key (List Item),
      (items.foldl (fun map item => map.pushBack (key item) item) map).listAt group =
        map.listAt group ++ items.filter fun item => key item = group := by
  induction items with
  | nil =>
    intro map
    simp
  | cons item rest ih =>
    intro map
    rw [foldl_cons, ih, listAt_pushBack]
    by_cases same : key item = group
    · simp [same]
    · simp [same, Ne.symm same]

end HashMap
end Ecclesia
