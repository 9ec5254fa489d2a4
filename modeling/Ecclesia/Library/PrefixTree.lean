import Mathlib.Data.List.Infix
import Ecclesia.Library.Assoc

namespace Ecclesia

open List Option

/-!
# Prefix trees with pointers

The nodes of a prefix tree are kept in an arena, and the address of a node is its
position there; the root is the first one.  A node lists its children under labels
and, beside them, the nodes it owns.  Both lists hold addresses, so it has to be
proved that a tree stays a tree while words are inserted.

What an arena stands for is a list of words, one for every node, and a mark for
every word.  All operations are described by what they do to these.
-/

variable {Label Mark : Type}

/-- A node of a prefix tree. -/
structure TreeNode (Label Mark : Type) where
  mark : Mark
  children : List (Label × Nat)
  owned : List Nat

/-- The nodes of a prefix tree by their addresses. -/
abbrev Arena (Label Mark : Type) := List (TreeNode Label Mark)

namespace Arena

/-- A node without children under the next free address, as a child of another node. -/
def grow (blank : Mark) (arena : Arena Label Mark) (address : Nat) (label : Label) :
    Arena Label Mark :=
  arena.modify address (fun node => { node with
    children := node.children ++ [(label, arena.length)]
    owned := node.owned ++ [arena.length] }) ++ [⟨blank, [], []⟩]

def setMark (arena : Arena Label Mark) (address : Nat) (mark : Mark) : Arena Label Mark :=
  arena.modify address fun node => { node with mark := mark }

section

variable [BEq Label]

def child (arena : Arena Label Mark) (address : Nat) (label : Label) : Option Nat :=
  arena[address]?.bind fun node => node.children.lookup label

/-- The node that a word leads to. -/
def walk (arena : Arena Label Mark) : Nat -> List Label -> Option Nat
  | address, [] => some address
  | address, label :: rest => (arena.child address label).bind fun next => walk arena next rest

/-- Follow a label, and grow a child if there is none. -/
def descend (blank : Mark) (position : Arena Label Mark × Nat) (label : Label) :
    Arena Label Mark × Nat :=
  match position.1.child position.2 label with
  | some next => (position.1, next)
  | none => (position.1.grow blank position.2 label, position.1.length)

end

variable {position : Nat}

lemma getElem?_concat_eq_some {Element : Type} {elements : List Element} {last element : Element} :
    (elements ++ [last])[position]? = some element ↔
      elements[position]? = some element ∨ position = elements.length ∧ element = last := by
  rcases Nat.lt_trichotomy position elements.length with before | rfl | after
  · rw [getElem?_append_left before]
    exact (or_iff_left fun ends => before.ne ends.1).symm
  · simp [eq_comm]
  · have outside : elements.length + 1 <= position := after
    rw [getElem?_eq_none (by simpa using outside), getElem?_eq_none after.le]
    simp [after.ne']

variable {node : TreeNode Label Mark} {label : Label}

lemma getElem?_grow {blank : Mark} {arena : Arena Label Mark} {address : Nat} :
    (arena.grow blank address label)[position]? = some node ↔
      (∃ before, arena[position]? = some before ∧
        node = if address = position then { before with
          children := before.children ++ [(label, arena.length)]
          owned := before.owned ++ [arena.length] } else before) ∨
      position = arena.length ∧ node = ⟨blank, [], []⟩ := by
  rw [grow, getElem?_concat_eq_some, getElem?_modify, Option.map_eq_map,
    map_eq_some_iff, length_modify]
  simp only [eq_comm]

/-- Every node stands for a word of its own, and owns its children, which stand for the words with
one more label. -/
structure Represents (blank : Mark) (arena : Arena Label Mark) (words : List (List Label))
    (marks : List Label -> Mark) : Prop where
  length_eq : words.length = arena.length
  root : words[0]? = some []
  distinct : words.Nodup
  closed : ∀ word label, word ++ [label] ∈ words -> word ∈ words
  children : ∀ {address : Nat} {node : TreeNode Label Mark} {word : List Label},
    arena[address]? = some node -> words[address]? = some word ->
    ∀ label target, (label, target) ∈ node.children ↔ words[target]? = some (word ++ [label])
  labels : ∀ node ∈ arena, (node.children.map Prod.fst).Nodup
  owned : ∀ node ∈ arena, node.owned = node.children.map Prod.snd
  marked : ∀ {address : Nat} {node : TreeNode Label Mark} {word : List Label},
    arena[address]? = some node -> words[address]? = some word -> node.mark = marks word
  blank_outside : ∀ word, word ∉ words -> marks word = blank

lemma represents_root (blank : Mark) :
    Represents blank ([⟨blank, [], []⟩] : Arena Label Mark) [[]] fun _ => blank where
  length_eq := rfl
  root := rfl
  distinct := nodup_singleton _
  closed word label inside := by simp at inside
  children := by
    intro address node word found spelled label target
    have first : address = 0 := by
      have bound := (List.getElem?_eq_some_iff.mp found).1
      simpa using bound
    subst first
    cases found
    cases spelled
    refine ⟨nofun, fun reached => ?_⟩
    have member := mem_of_getElem? reached
    simp at member
  labels node inside := by simp [mem_singleton.mp inside]
  owned node inside := by simp [mem_singleton.mp inside]
  marked := by
    intro address node word found _
    simp [mem_singleton.mp (mem_of_getElem? found)]
  blank_outside _ _ := rfl

namespace Represents

variable {blank : Mark} {arena : Arena Label Mark} {words : List (List Label)}
  {marks : List Label -> Mark}

variable {address : Nat} {word : List Label}

section

variable (represents : Represents blank arena words marks)

include represents

lemma node_of_word (spelled : words[address]? = some word) :
    ∃ node, arena[address]? = some node := by
  have bound := (List.getElem?_eq_some_iff.mp spelled).1
  rw [represents.length_eq] at bound
  exact ⟨arena[address], getElem?_eq_getElem bound⟩

lemma word_of_node (found : arena[address]? = some node) : ∃ word, words[address]? = some word := by
  have bound := (List.getElem?_eq_some_iff.mp found).1
  rw [<- represents.length_eq] at bound
  exact ⟨words[address], getElem?_eq_getElem bound⟩

lemma address_unique {first second : Nat} (atFirst : words[first]? = some word)
    (atSecond : words[second]? = some word) : first = second := by
  have bound := (List.getElem?_eq_some_iff.mp atFirst).1
  exact (getElem?_inj bound represents.distinct).mp (atFirst.trans atSecond.symm)

lemma mem_of_append (rest : List Label) (inside : word ++ rest ∈ words) : word ∈ words := by
  induction rest using reverseRecOn with
  | nil => simpa using inside
  | append_singleton rest label ih =>
    rw [<- append_assoc] at inside
    exact ih (represents.closed _ label inside)

lemma parent_unique {first second target : Nat} {firstNode secondNode : TreeNode Label Mark}
    {firstLabel secondLabel : Label} (atFirst : arena[first]? = some firstNode)
    (atSecond : arena[second]? = some secondNode)
    (inFirst : (firstLabel, target) ∈ firstNode.children)
    (inSecond : (secondLabel, target) ∈ secondNode.children) :
    first = second ∧ firstLabel = secondLabel := by
  rcases represents.word_of_node atFirst with ⟨firstWord, spelledFirst⟩
  rcases represents.word_of_node atSecond with ⟨secondWord, spelledSecond⟩
  have one := (represents.children atFirst spelledFirst firstLabel target).mp inFirst
  have two := (represents.children atSecond spelledSecond secondLabel target).mp inSecond
  rw [one, some_inj] at two
  have parts := append_inj' two rfl
  rw [parts.1] at spelledFirst
  exact ⟨represents.address_unique spelledFirst spelledSecond, cons.inj parts.2 |>.1⟩

end

section

variable [BEq Label] [LawfulBEq Label]

lemma child_iff (represents : Represents blank arena words marks) {address : Nat}
    {word : List Label} (spelled : words[address]? = some word) {target : Nat} :
    arena.child address label = some target ↔ words[target]? = some (word ++ [label]) := by
  rcases represents.node_of_word spelled with ⟨node, found⟩
  rw [child, found, <- represents.children found spelled]
  exact lookup_eq_some_iff_mem (represents.labels node (mem_of_getElem? found))

lemma walk_from (represents : Represents blank arena words marks) (rest : List Label) :
    ∀ {address : Nat} {word : List Label}, words[address]? = some word ->
      ∀ target, arena.walk address rest = some target ↔ words[target]? = some (word ++ rest) := by
  induction rest with
  | nil =>
    intro address word spelled target
    rw [walk, append_nil, some_inj]
    constructor
    · rintro rfl
      exact spelled
    · exact represents.address_unique spelled
  | cons label rest ih =>
    intro address word spelled target
    rw [walk, bind_eq_some_iff]
    constructor
    · rintro ⟨next, found, walked⟩
      have reached := (ih ((represents.child_iff spelled).mp found) target).mp walked
      simpa using reached
    · intro reached
      have inside : word ++ [label] ∈ words := by
        apply represents.mem_of_append rest
        simpa using mem_of_getElem? reached
      rcases getElem?_of_mem inside with ⟨next, spelledNext⟩
      refine ⟨next, (represents.child_iff spelled).mpr spelledNext, ?_⟩
      rw [ih spelledNext target]
      simpa using reached

end

section

variable (represents : Represents blank arena words marks)

include represents

lemma grow_cases {last other : List Label}
    (found : (arena.grow blank address label)[position]? = some node)
    (spelled : (words ++ [last])[position]? = some other) :
    (∃ before, arena[position]? = some before ∧ words[position]? = some other ∧
      node = if address = position then { before with
        children := before.children ++ [(label, arena.length)]
        owned := before.owned ++ [arena.length] } else before) ∨
    node = ⟨blank, [], []⟩ ∧ other = last := by
  rcases getElem?_grow.mp found with ⟨before, foundBefore, rfl⟩ | ⟨rfl, rfl⟩
  · have within := (List.getElem?_eq_some_iff.mp foundBefore).1
    rw [<- represents.length_eq] at within
    rw [getElem?_append_left within] at spelled
    exact .inl ⟨before, foundBefore, spelled, rfl⟩
  · rcases getElem?_concat_eq_some.mp spelled with inside | ⟨-, rfl⟩
    · have outside := (List.getElem?_eq_some_iff.mp inside).1
      rw [represents.length_eq] at outside
      exact (lt_irrefl _ outside).elim
    · exact .inr ⟨rfl, rfl⟩

lemma grow (spelled : words[address]? = some word) (absent : word ++ [label] ∉ words) :
    Represents blank (arena.grow blank address label) (words ++ [word ++ [label]]) marks := by
  have known : word ∈ words := mem_of_getElem? spelled
  refine ⟨?_, ?_, ?_, ?_, ?_, ?_, ?_, ?_, ?_⟩
  · simp [Arena.grow, represents.length_eq]
  · exact getElem?_concat_eq_some.mpr (.inl represents.root)
  · exact concat_eq_append ▸ represents.distinct.concat absent
  · intro other otherLabel inside
    rcases mem_append.mp inside with inside | inside
    · exact mem_append_left _ (represents.closed other otherLabel inside)
    · have parts := append_inj' (mem_singleton.mp inside) rfl
      rw [parts.1]
      exact mem_append_left _ known
  · intro position node other found spelledOther otherLabel target
    rw [getElem?_concat_eq_some]
    rcases represents.grow_cases found spelledOther with
      ⟨before, foundBefore, spelledOther, rfl⟩ | ⟨rfl, rfl⟩
    · have old := represents.children foundBefore spelledOther otherLabel target
      by_cases same : address = position
      · subst same
        rw [spelled, some_inj] at spelledOther
        subst spelledOther
        rw [if_pos rfl, mem_append, old, represents.length_eq, and_comm]
        simp
      · have different : other ++ [otherLabel] ≠ word ++ [label] := by
          intro equal
          rw [(append_inj' equal rfl).1] at spelledOther
          exact same (represents.address_unique spelled spelledOther)
        rw [if_neg same, old]
        exact (or_iff_left fun both => different both.2).symm
    · -- The new node has no children, since a word below it would be below no word at all.
      refine ⟨nofun, ?_⟩
      rintro (inside | ⟨-, equal⟩)
      · exact (absent (represents.closed _ _ (mem_of_getElem? inside))).elim
      · have lengths := congrArg List.length equal
        simp at lengths
  · intro node inside
    rcases getElem?_of_mem inside with ⟨position, found⟩
    rcases getElem?_grow.mp found with ⟨before, foundBefore, rfl⟩ | ⟨rfl, rfl⟩
    · have distinct := represents.labels before (mem_of_getElem? foundBefore)
      by_cases same : address = position
      · subst same
        rw [if_pos rfl, map_append]
        apply concat_eq_append ▸ distinct.concat
        intro inside
        rcases mem_map.mp inside with ⟨⟨_, target⟩, member, rfl⟩
        exact absent (mem_of_getElem? ((represents.children foundBefore spelled _ _).mp member))
      · rw [if_neg same]
        exact distinct
    · exact nodup_nil
  · intro node inside
    rcases getElem?_of_mem inside with ⟨position, found⟩
    rcases getElem?_grow.mp found with ⟨before, foundBefore, rfl⟩ | ⟨rfl, rfl⟩
    · have owns := represents.owned before (mem_of_getElem? foundBefore)
      by_cases same : address = position
      · rw [if_pos same, map_append, <- owns]
        rfl
      · rw [if_neg same]
        exact owns
    · rfl
  · intro position node other found spelledOther
    rcases represents.grow_cases found spelledOther with
      ⟨before, foundBefore, spelledOther, rfl⟩ | ⟨rfl, rfl⟩
    · rw [<- represents.marked foundBefore spelledOther]
      split
      · rfl
      · rfl
    · exact (represents.blank_outside _ absent).symm
  · intro other outside
    exact represents.blank_outside other fun inside => outside (mem_append_left _ inside)

lemma setMark [DecidableEq Label] (spelled : words[address]? = some word) (mark : Mark) :
    Represents blank (arena.setMark address mark) words
      fun other => if other = word then mark else marks other := by
  have found : ∀ {other : Nat} {node : TreeNode Label Mark},
      (arena.setMark address mark)[other]? = some node -> ∃ before,
        arena[other]? = some before ∧
          node = if address = other then { before with mark := mark } else before := by
    intro other node present
    rw [Arena.setMark, getElem?_modify, Option.map_eq_map, map_eq_some_iff] at present
    rcases present with ⟨before, foundBefore, rfl⟩
    exact ⟨before, foundBefore, rfl⟩
  have kept : ∀ node ∈ arena.setMark address mark, ∃ before ∈ arena,
      node.children = before.children ∧ node.owned = before.owned := by
    intro node inside
    rcases getElem?_of_mem inside with ⟨other, present⟩
    rcases found present with ⟨before, foundBefore, rfl⟩
    refine ⟨before, mem_of_getElem? foundBefore, ?_⟩
    split
    · exact ⟨rfl, rfl⟩
    · exact ⟨rfl, rfl⟩
  refine ⟨?_, represents.root, represents.distinct, represents.closed, ?_, ?_, ?_, ?_, ?_⟩
  · rw [represents.length_eq, Arena.setMark, length_modify]
  · intro other node otherWord present spelledOther label target
    rcases found present with ⟨before, foundBefore, rfl⟩
    rw [<- represents.children foundBefore spelledOther]
    split
    · rfl
    · rfl
  · intro node inside
    rcases kept node inside with ⟨before, insideBefore, sameChildren, -⟩
    rw [sameChildren]
    exact represents.labels before insideBefore
  · intro node inside
    rcases kept node inside with ⟨before, insideBefore, sameChildren, sameOwned⟩
    rw [sameChildren, sameOwned]
    exact represents.owned before insideBefore
  · intro other node otherWord present spelledOther
    rcases found present with ⟨before, foundBefore, rfl⟩
    by_cases same : address = other
    · subst same
      rw [spelled, some_inj] at spelledOther
      rw [if_pos rfl, if_pos spelledOther.symm]
    · have different : otherWord ≠ word := by
        rintro rfl
        exact same (represents.address_unique spelled spelledOther)
      rw [if_neg same, if_neg different]
      exact represents.marked foundBefore spelledOther
  · intro other outside
    have different : other ≠ word := by
      rintro rfl
      exact outside (mem_of_getElem? spelled)
    rw [if_neg different]
    exact represents.blank_outside other outside

end

variable [BEq Label] [LawfulBEq Label]

lemma descend (represents : Represents blank arena words marks) {address : Nat}
    {word : List Label} (spelled : words[address]? = some word) (label : Label) :
    ∃ after, Represents blank (descend blank (arena, address) label).1 after marks ∧
      after[(Arena.descend blank (arena, address) label).2]? = some (word ++ [label]) ∧
      ∀ other, other ∈ after ↔ other ∈ words ∨ other = word ++ [label] := by
  unfold Arena.descend
  cases found : arena.child address label with
  | some next =>
    have reached := (represents.child_iff spelled).mp found
    refine ⟨words, represents, reached, fun other => (or_iff_left_of_imp ?_).symm⟩
    rintro rfl
    exact mem_of_getElem? reached
  | none =>
    have absent : word ++ [label] ∉ words := by
      intro inside
      rcases getElem?_of_mem inside with ⟨next, reached⟩
      rw [(represents.child_iff spelled).mpr reached] at found
      cases found
    refine ⟨words ++ [word ++ [label]], represents.grow spelled absent, ?_, ?_⟩
    · exact getElem?_concat_eq_some.mpr (.inr ⟨represents.length_eq.symm, rfl⟩)
    · intro other
      rw [mem_append, mem_singleton]

/-- Inserting a word below a node adds the parts it starts with. -/
lemma foldl_descend (rest : List Label) :
    ∀ {arena : Arena Label Mark} {words : List (List Label)} {address : Nat}
      {word : List Label}, Represents blank arena words marks -> words[address]? = some word ->
      ∃ after, Represents blank (rest.foldl (Arena.descend blank) (arena, address)).1 after marks ∧
        after[(rest.foldl (Arena.descend blank) (arena, address)).2]? = some (word ++ rest) ∧
        ∀ other, other ∈ after ↔ other ∈ words ∨ ∃ part, part <+: rest ∧ other = word ++ part := by
  induction rest with
  | nil =>
    intro arena words address word represents spelled
    refine ⟨words, represents, by simpa using spelled, fun other => (or_iff_left_of_imp ?_).symm⟩
    rintro ⟨part, starts, rfl⟩
    rw [prefix_nil.mp starts, append_nil]
    exact mem_of_getElem? spelled
  | cons label rest ih =>
    intro arena words address word represents spelled
    rcases represents.descend spelled label with ⟨next, representsNext, spelledNext, memNext⟩
    rcases ih representsNext spelledNext with ⟨after, representsAfter, spelledAfter, memAfter⟩
    refine ⟨after, representsAfter, by simpa using spelledAfter, fun other => ?_⟩
    rw [memAfter, memNext]
    constructor
    · rintro ((inside | rfl) | ⟨part, starts, rfl⟩)
      · exact .inl inside
      · exact .inr ⟨[label], ⟨rest, rfl⟩, rfl⟩
      · exact .inr ⟨label :: part, cons_prefix_cons.mpr ⟨rfl, starts⟩, by simp⟩
    · rintro (inside | ⟨part, starts, rfl⟩)
      · exact .inl (.inl inside)
      · cases part with
        | nil => exact .inl (.inl (by simpa using mem_of_getElem? spelled))
        | cons first part =>
          rcases cons_prefix_cons.mp starts with ⟨rfl, startsRest⟩
          exact .inr ⟨part, startsRest, by simp⟩

end Represents
end Arena
end Ecclesia
