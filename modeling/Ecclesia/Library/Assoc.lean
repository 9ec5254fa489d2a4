import Mathlib.Data.List.Nodup

namespace Ecclesia

open List

/-!
# Hash sets and hash maps

The contents of a hash table are kept in a list, in some order of iteration.  A
set carries the fact that it holds no element twice.  Two maps are the same when
every key finds the same value in both of them.
-/

variable {Key Value Element : Type}

/-- The contents of a hash set. -/
structure HashSet (Element : Type) where
  elements : List Element
  distinct : elements.Nodup

namespace HashSet

def empty : HashSet Element := ⟨[], List.nodup_nil⟩

variable [BEq Element] [LawfulBEq Element]

def erase (set : HashSet Element) (element : Element) : HashSet Element where
  elements := set.elements.erase element
  distinct := set.distinct.erase element

def insert [DecidableEq Element] (set : HashSet Element) (element : Element) :
    HashSet Element where
  elements := if element ∈ set.elements then set.elements else set.elements ++ [element]
  distinct := by
    split_ifs with present
    · exact set.distinct
    · rw [<- List.concat_eq_append]
      exact set.distinct.concat present

variable {set : HashSet Element} {element : Element}

lemma mem_erase {other : Element} :
    other ∈ (set.erase element).elements ↔ other ≠ element ∧ other ∈ set.elements :=
  set.distinct.mem_erase_iff

lemma elements_insert [DecidableEq Element]
    (absent : element ∉ set.elements) : (set.insert element).elements = set.elements ++ [element] :=
  if_neg absent

lemma mem_insert [DecidableEq Element] {other : Element} :
    other ∈ (set.insert element).elements ↔ other = element ∨ other ∈ set.elements := by
  unfold HashSet.insert
  by_cases present : element ∈ set.elements
  · simp only [if_pos present]
    constructor
    · exact .inr
    · rintro (rfl | before)
      · exact present
      · exact before
  · simp only [if_neg present, mem_append, mem_singleton]
    exact or_comm

end HashSet

variable [BEq Key] [LawfulBEq Key]

def insertOrAssign (key : Key) (value : Value) : List (Key × Value) -> List (Key × Value)
  | [] => [(key, value)]
  | (other, current) :: rest =>
    if other == key then (other, value) :: rest
    else (other, current) :: insertOrAssign key value rest

variable {map : List (Key × Value)}

variable {key : Key}

lemma insertOrAssign_absent {value : Value}
    (absent : key ∉ map.map Prod.fst) : insertOrAssign key value map = map ++ [(key, value)] := by
  induction map with
  | nil => rfl
  | cons entry rest ih =>
    rcases entry with ⟨other, current⟩
    rw [map_cons, mem_cons, not_or] at absent
    have different : (other == key) ≠ true := fun same => absent.1 (eq_of_beq same).symm
    rw [insertOrAssign, if_neg different, ih absent.2]
    rfl

lemma lookup_insertOrAssign (key other : Key) (value : Value) (map : List (Key × Value)) :
    (insertOrAssign key value map).lookup other =
      if other == key then some value else map.lookup other := by
  induction map with
  | nil =>
    rw [insertOrAssign, lookup_cons]
    cases other == key with
    | true => rfl
    | false => rfl
  | cons entry rest ih =>
    rcases entry with ⟨present, current⟩
    rw [insertOrAssign]
    by_cases found : present = key
    · subst found
      rw [if_pos (beq_self_eq_true present), lookup_cons, lookup_cons]
      cases other == present with
      | true => rfl
      | false => rfl
    · rw [if_neg (by simpa using found), lookup_cons, lookup_cons, ih]
      by_cases same : other = present
      · subst same
        simp only [beq_false_of_ne found]
        rfl
      · simp only [beq_false_of_ne same]

lemma lookup_isSome_iff : (map.lookup key).isSome = true ↔ key ∈ map.map Prod.fst := by
  induction map with
  | nil => simp
  | cons entry rest ih =>
    rcases entry with ⟨present, value⟩
    rw [lookup_cons, map_cons, mem_cons]
    by_cases same : key = present
    · simp [same]
    · simp only [beq_false_of_ne same, ih]
      exact ⟨.inr, fun found => found.resolve_left same⟩

lemma lookup_eq_some_iff_mem {value : Value}
    (distinct : (map.map Prod.fst).Nodup) : map.lookup key = some value ↔ (key, value) ∈ map := by
  induction map with
  | nil => simp
  | cons entry rest ih =>
    rcases entry with ⟨present, current⟩
    rcases nodup_cons.mp distinct with ⟨absent, distinctRest⟩
    rw [lookup_cons, mem_cons, Prod.mk.injEq]
    by_cases same : key = present
    · subst same
      have elsewhere : (key, value) ∉ rest := fun inside =>
        absent (mem_map.mpr ⟨_, inside, rfl⟩)
      simp [elsewhere, eq_comm]
    · simp only [beq_false_of_ne same, ih distinctRest, same, false_and, false_or]

lemma keys_insertOrAssign (key : Key) (value : Value) (map : List (Key × Value)) :
    (insertOrAssign key value map).map Prod.fst =
      if key ∈ map.map Prod.fst then map.map Prod.fst else map.map Prod.fst ++ [key] := by
  induction map with
  | nil => rfl
  | cons entry rest ih =>
    rcases entry with ⟨present, current⟩
    rw [insertOrAssign]
    by_cases found : present = key
    · simp [found]
    · rw [if_neg (by simpa using found), map_cons, ih]
      by_cases later : key ∈ rest.map Prod.fst
      · rw [if_pos later, map_cons, if_pos (.tail _ later)]
      · have absent : key ∉ (present, current).1 :: rest.map Prod.fst := by
          rintro (_ | ⟨_, inside⟩)
          · exact found rfl
          · exact later inside
        rw [if_neg later, map_cons, if_neg absent, cons_append]

/-- The contents of a hash map. -/
structure HashMap (Key Value : Type) where
  entries : List (Key × Value)
  distinct : (entries.map Prod.fst).Nodup

namespace HashMap

def keys (map : HashMap Key Value) : List Key := map.entries.map Prod.fst

def lookup (map : HashMap Key Value) (key : Key) : Option Value := map.entries.lookup key

def assign (map : HashMap Key Value) (key : Key) (value : Value) : HashMap Key Value where
  entries := insertOrAssign key value map.entries
  distinct := by
    rw [keys_insertOrAssign]
    split
    · exact map.distinct
    · exact List.concat_eq_append ▸ map.distinct.concat ‹_›

lemma lookup_assign (map : HashMap Key Value) (key other : Key) (value : Value) :
    (map.assign key value).lookup other = if other == key then some value else map.lookup other :=
  lookup_insertOrAssign key other value map.entries

lemma lookup_isSome (map : HashMap Key Value) (key : Key) :
    (map.lookup key).isSome = true ↔ key ∈ map.keys :=
  lookup_isSome_iff

/-- A map without entries. -/
def empty : HashMap Key Value := ⟨[], List.nodup_nil⟩

lemma mem_keys_assign (map : HashMap Key Value) (key other : Key) (value : Value) :
    other ∈ (map.assign key value).keys ↔ other = key ∨ other ∈ map.keys := by
  rw [<- lookup_isSome, <- lookup_isSome, lookup_assign]
  by_cases same : other = key
  · simp [same]
  · simp [same, beq_false_of_ne same]

lemma lookup_foldl_assign {Item : Type} {key : Item -> Key} {value : Item -> Value}
    {items : List Item} (distinct : (items.map key).Nodup) {other : Key} {found : Value} :
    ∀ map : HashMap Key Value,
      (items.foldl (fun map item => map.assign (key item) (value item)) map).lookup other =
          some found ↔
        (∃ item ∈ items, key item = other ∧ value item = found) ∨
          (other ∉ items.map key ∧ map.lookup other = some found) := by
  induction items with
  | nil =>
    intro map
    simp
  | cons item rest ih =>
    intro map
    rcases nodup_cons.mp distinct with ⟨absent, distinctRest⟩
    rw [foldl_cons, ih distinctRest, lookup_assign]
    by_cases same : other = key item
    · subst same
      have nowhere : ¬ ∃ later ∈ rest, key later = key item ∧ value later = found := by
        rintro ⟨later, isLater, sameKey, _⟩
        exact absent (mem_map.mpr ⟨later, isLater, sameKey⟩)
      simp only [nowhere, beq_self_eq_true, false_or]
      constructor
      · rintro ⟨_, sameValue⟩
        exact .inl ⟨item, .head _, rfl, Option.some.inj sameValue⟩
      · rintro (⟨other, isOther, sameKey, sameValue⟩ | ⟨elsewhere, _⟩)
        · rcases mem_cons.mp isOther with rfl | isLater
          · exact ⟨absent, congrArg some sameValue⟩
          · exact absurd ⟨other, isLater, sameKey, sameValue⟩ nowhere
        · exact absurd (.head _) elsewhere
    · rw [beq_false_of_ne same, map_cons, mem_cons, not_or]
      constructor
      · rintro (⟨later, isLater, found⟩ | ⟨elsewhere, before⟩)
        · exact .inl ⟨later, .tail _ isLater, found⟩
        · exact .inr ⟨⟨same, elsewhere⟩, before⟩
      · rintro (⟨later, isLater, sameKey, sameValue⟩ | ⟨⟨_, elsewhere⟩, before⟩)
        · rcases mem_cons.mp isLater with rfl | isLater
          · exact absurd sameKey.symm same
          · exact .inl ⟨later, isLater, sameKey, sameValue⟩
        · exact .inr ⟨elsewhere, before⟩

/-- The list under a key of a map of lists, which is empty if the key is not there. -/
def listAt {Element : Type} (map : HashMap Key (List Element)) (key : Key) : List Element :=
  (map.lookup key).getD []

def pushBack {Element : Type} (map : HashMap Key (List Element)) (key : Key) (element : Element) :
    HashMap Key (List Element) :=
  map.assign key (map.listAt key ++ [element])

variable {Element : Type}

lemma listAt_pushBack (map : HashMap Key (List Element)) (key other : Key) (element : Element) :
    (map.pushBack key element).listAt other =
      if other == key then map.listAt key ++ [element] else map.listAt other := by
  unfold listAt pushBack
  rw [lookup_assign]
  cases other == key with
  | true => rfl
  | false => rfl

lemma mem_keys_of_mem_listAt {map : HashMap Key (List Element)}
    {element : Element} (member : element ∈ map.listAt key) : key ∈ map.keys := by
  rw [<- lookup_isSome]
  unfold listAt at member
  cases found : map.lookup key with
  | none =>
    rw [found] at member
    cases member
  | some elements => rfl

lemma mem_keys_pushBack (map : HashMap Key (List Element)) (key other : Key) (element : Element) :
    other ∈ (map.pushBack key element).keys ↔ other = key ∨ other ∈ map.keys :=
  mem_keys_assign map key other _

def erase (map : HashMap Key Value) (key : Key) : HashMap Key Value where
  entries := map.entries.filter fun entry => !(entry.1 == key)
  distinct := map.distinct.sublist (List.filter_sublist.map Prod.fst)

def filterKeys (map : HashMap Key Value) (kept : Key -> Bool) : HashMap Key Value where
  entries := map.entries.filter fun entry => kept entry.1
  distinct := map.distinct.sublist (List.filter_sublist.map Prod.fst)

lemma lookup_erase (map : HashMap Key Value) (key other : Key) :
    (map.erase key).lookup other = if other == key then none else map.lookup other := by
  have general : ∀ entries : List (Key × Value),
      (entries.filter fun entry => !(entry.1 == key)).lookup other =
        if other == key then none else entries.lookup other := by
    intro entries
    induction entries with
    | nil => simp
    | cons entry rest ih =>
      rcases entry with ⟨present, value⟩
      by_cases erased : present = key
      · subst erased
        rw [filter_cons_of_neg (by simp), ih, lookup_cons]
        cases other == present with
        | true => rfl
        | false => rfl
      · rw [filter_cons_of_pos (by simpa using erased), lookup_cons, ih,
          lookup_cons]
        by_cases same : other = present
        · subst same
          simp [erased]
        · simp [beq_false_of_ne same]
  exact general map.entries

lemma erase_of_absent {map : HashMap Key Value} (absent : map.lookup key = none) :
    map.erase key = map := by
  rcases map with ⟨entries, distinct⟩
  have kept : entries.filter (fun entry => !(entry.1 == key)) = entries := by
    apply filter_eq_self.mpr
    intro entry member
    have differs : entry.1 ≠ key := by
      rintro rfl
      have found := lookup_isSome_iff.mpr (mem_map_of_mem member)
      rw [show List.lookup entry.1 entries = none from absent] at found
      cases found
    simpa using differs
  simp only [erase, kept]

/-- `map.insert({key, value})`, which leaves a present value as it is. -/
def insert (map : HashMap Key Value) (key : Key) (value : Value) : HashMap Key Value :=
  if (map.lookup key).isSome then map else map.assign key value

lemma lookup_insert (map : HashMap Key Value) (key other : Key) (value : Value) :
    (map.insert key value).lookup other =
      if other == key then some ((map.lookup key).getD value) else map.lookup other := by
  unfold insert
  cases present : map.lookup key with
  | none => simp [lookup_assign]
  | some current =>
    by_cases same : other = key
    · simp [same, present]
    · simp [same]

end HashMap

def SameMap (first second : List (Key × Value)) : Prop :=
  ∀ key, first.lookup key = second.lookup key

end Ecclesia
