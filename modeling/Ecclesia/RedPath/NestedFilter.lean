import Ecclesia.RedPath.Safety

namespace Ecclesia.RedPath

open Absl List

/-!
# Nested filters

A nested filter names a property of a property and so on, with a value or without one.  It is
meant to select the members that have the property, and that value of it.  The code handles
names and value alike, and takes a piece for the last one if it is equal to it.
-/

/-- The names of a filter, and the value if there is one. -/
structure NestedFilter where
  names : List Text
  value : Option Text
  named : names ≠ []
  plain : ∀ piece ∈ names ++ value.toList, '.' ∉ piece ∧ '=' ∉ piece

def leadsTo : List Text -> Json -> Option Json
  | [], json => some json
  | name :: rest, json => (json.find name).bind (leadsTo rest)

section

variable (lib : NumberLibrary)

def writtenAs (value : Text) : Json -> Bool
  | .null => value == text "null"
  | .boolean stored => value == if stored then text "true" else text "false"
  | .integer stored => lib.dump (.integer stored) == value
  | .unsigned stored => lib.dump (.unsigned stored) == value
  | .float stored => lib.dump (.float stored) == value
  | .string stored => stored == value
  | _ => false

/-- Whether the names lead to a property, which has the value if there is one. -/
def leadsToValue (value : Option Text) (names : List Text) (json : Json) : Bool :=
  match leadsTo names json with
  | none => false
  | some reached =>
    match value with
    | none => true
    | some value => writtenAs lib value reached

namespace NestedFilter

variable (filter : NestedFilter)

def pieces : List Text :=
  filter.names ++ filter.value.toList

/-- The last piece. -/
def back : Text :=
  filter.pieces.getLastD []

/-- The text between the brackets. -/
def text : Text :=
  match filter.value with
  | none => strJoin filter.names ['.']
  | some value => strJoin filter.names ['.'] ++ '=' :: value

/-- Whether a payload is meant to be selected. -/
def selects (json : Json) : Bool :=
  leadsToValue lib filter.value filter.names json

end NestedFilter

/-- A boolean is compared with booleans only, and no member of an object is named as the value. -/
def ValueClear (value : Text) : Json -> Prop
  | .boolean stored => stored = true -> value = text "true" ∨ value = text "false"
  | .object members => Json.contains (.object members) value = false
  | _ => True

/-- A name that is equal to the last piece leads where it seems to lead: no scalar is written as the
name, and an object with such a member says what the member does. -/
def BackClear (back : Text) (value : Option Text) (rest : List Text) (json : Json) : Prop :=
  match settled lib back json with
  | some answer => answer = false
  | none =>
    (json.equalsText back = true -> ∃ later ∈ rest, later ≠ back) ∧
      ∀ child, json.find back = some child ->
        ¬ Trips lib back (rest ++ value.toList) json ∧
          passes lib back (rest ++ value.toList) json = leadsToValue lib value rest child

/-- The names are followed as they are meant: none is found in a text, and none mistaken. -/
def Clear (back : Text) (value : Option Text) : List Text -> Json -> Prop
  | [], json => ∀ last, value = some last -> ValueClear last json
  | name :: rest, json =>
    if name = back then BackClear lib back value rest json
    else json.equalsText name = false ∧
      ∀ child, json.find name = some child -> Clear back value rest child

def NestedFilter.Clear (filter : NestedFilter) (json : Json) : Prop :=
  RedPath.Clear lib filter.back filter.value filter.names json

end

lemma splitNested_plain {piece : Text} (plain : '.' ∉ piece ∧ '=' ∉ piece) :
    ∀ c ∈ piece, (c == '.' || c == '=') = false := by
  intro c member
  rw [Bool.or_eq_false_iff, beq_eq_false_iff_ne, beq_eq_false_iff_ne]
  constructor
  · intro same
    exact plain.1 (same ▸ member)
  · intro same
    exact plain.2 (same ▸ member)

lemma splitNested_join {tail : Text} {others : List Text}
    (after : ∀ piece, '.' ∉ piece ∧ '=' ∉ piece -> splitNested (piece ++ tail) = piece :: others) :
    ∀ names : List Text, names ≠ [] ->
      (∀ piece ∈ names, '.' ∉ piece ∧ '=' ∉ piece) ->
      splitNested (strJoin names ['.'] ++ tail) = names ++ others := by
  intro names
  induction names with
  | nil => exact fun named => absurd rfl named
  | cons name rest ih =>
    intro _ plain
    have first := plain name (.head _)
    cases rest with
    | nil =>
      rw [strJoin, intercalate_singleton]
      exact after name first
    | cons second rest =>
      have later := ih (cons_ne_nil _ _) fun piece member =>
        plain piece (.tail _ member)
      have joined : strJoin (name :: second :: rest) ['.'] ++ tail =
          name ++ '.' :: (strJoin (second :: rest) ['.'] ++ tail) := by
        rw [strJoin, intercalate_cons_cons, append_assoc, append_assoc]
        rfl
      rw [joined, splitNested, splitOnP_append_cons_of_forall_mem (splitNested_plain first) '.' rfl]
      exact congrArg (List.cons name) later

lemma NestedFilter.splitNested_text (filter : NestedFilter) :
    splitNested filter.text = filter.pieces := by
  have plain : ∀ piece ∈ filter.names, '.' ∉ piece ∧ '=' ∉ piece :=
    fun piece member => filter.plain piece (mem_append_left _ member)
  rw [NestedFilter.text, NestedFilter.pieces]
  cases isValue : filter.value with
  | none =>
    have single : ∀ piece : Text, '.' ∉ piece ∧ '=' ∉ piece ->
        splitNested (piece ++ []) = piece :: [] := by
      intro piece isPlain
      rw [append_nil, splitNested, splitOnP_eq_singleton (splitNested_plain isPlain)]
    have all := splitNested_join single filter.names filter.named plain
    rw [append_nil] at all
    exact all
  | some value =>
    have plainValue : '.' ∉ value ∧ '=' ∉ value := by
      apply filter.plain
      rw [isValue]
      exact mem_append_right _ (mem_singleton_self value)
    apply splitNested_join _ filter.names filter.named plain
    intro piece isPlain
    rw [splitNested, splitOnP_append_cons_of_forall_mem (splitNested_plain isPlain) '=' rfl,
      splitOnP_eq_singleton (splitNested_plain plainValue)]
    rfl

section

variable {lib : NumberLibrary} {back : Text}

lemma text_of_equalsText {json : Json} {piece : Text} (same : json.equalsText piece = true) :
    json = .string piece := by
  cases json with
  | string stored =>
    rw [Json.equalsText, beq_iff_eq] at same
    rw [same]
  | _ => cases same

lemma string_back (lib : NumberLibrary) (back : Text) (pieces : List Text) :
    ¬ Trips lib back pieces (.string back) ∧
      (passes lib back pieces (.string back) = true <-> ∀ piece ∈ pieces, piece = back) := by
  induction pieces with
  | nil => exact ⟨id, fun _ piece member => (by cases member), fun _ => rfl⟩
  | cons piece rest ih =>
    rw [Trips, passes]
    by_cases isBack : piece = back
    · have isText : Json.equalsText (.string back) back = true := beq_self_eq_true back
      rw [if_pos isBack, if_pos isBack, isBack]
      simp only [settled]
      rw [isText, Bool.or_true, Bool.true_and]
      exact ⟨fun trips => ih.1 trips.2.2, by rw [ih.2, forall_mem_cons, eq_self, true_and]⟩
    · have noText : Json.equalsText (.string back) piece = false :=
        beq_eq_false_iff_ne.mpr (.symm isBack)
      rw [if_neg isBack, if_neg isBack, noText]
      constructor
      · intro trips
        rcases trips with impossible | ⟨child, found, _⟩
        · cases impossible
        · cases found
      · constructor
        · intro impossible
          cases impossible
        · exact fun all => absurd (all piece (.head _)) isBack

lemma leadsToValue_cons (value : Option Text) (name : Text) (rest : List Text) (json : Json) :
    leadsToValue lib value (name :: rest) json =
      match json.find name with
      | none => false
      | some child => leadsToValue lib value rest child := by
  rw [leadsToValue, leadsTo]
  cases json.find name with
  | none => rfl
  | some child => rfl

lemma settled_no_member {piece name : Text} {json : Json} {answer : Bool}
    (isSettled : settled lib piece json = some answer) : json.find name = none := by
  cases json with
  | object members => cases isSettled
  | _ => rfl

lemma value_clear_iff (json : Json) :
    (¬ Trips lib back [back] json ∧
      passes lib back [back] json = leadsToValue lib (some back) [] json) <->
      ValueClear back json := by
  have noTrip : ¬ Trips lib back [back] json := by
    rw [Trips, if_pos rfl]
    exact fun trips => trips.2.2
  rw [passes, if_pos rfl, and_iff_right noTrip]
  change _ = writtenAs lib back json <-> _
  cases json with
  | boolean stored =>
    simp only [settled, writtenAs, ValueClear]
    cases stored with
    | false =>
      cases same : back == text "false" <;> simp [bne, same]
    | true =>
      by_cases isTrue : back = text "true"
      · subst isTrue
        decide
      · by_cases isFalse : back = text "false"
        · subst isFalse
          decide
        · simp [bne, isTrue, isFalse]
  | object members =>
    simp only [ValueClear, passes]
    rw [Bool.and_true]
    change (Json.contains _ _ || false) = false <-> _
    rw [Bool.or_false]
  | string stored =>
    simp only [ValueClear, passes]
    rw [Bool.and_true]
    change (false || stored == back) = (stored == back) <-> _
    rw [Bool.false_or, eq_self]
  | null => exact iff_of_true rfl trivial
  | integer stored => exact iff_of_true rfl trivial
  | unsigned stored => exact iff_of_true rfl trivial
  | float stored => exact iff_of_true rfl trivial
  | array elements => exact iff_of_true rfl trivial
  | discarded => exact iff_of_true rfl trivial

/-- A name that is equal to the last piece. -/
lemma back_clear_iff {value : Option Text} (isBack : ∀ last, value = some last -> last = back)
    (rest : List Text) (json : Json) :
    (¬ Trips lib back (back :: (rest ++ value.toList)) json ∧
      passes lib back (back :: (rest ++ value.toList)) json =
        leadsToValue lib value (back :: rest) json) <->
      BackClear lib back value rest json := by
  rw [Trips, passes, if_pos rfl, if_pos rfl, leadsToValue_cons, BackClear]
  cases isSettled : settled lib back json with
  | some answer =>
    have noTrip : ¬ (some answer = none ∧ (json.contains back || json.equalsText back) = true ∧
        Trips lib back (rest ++ value.toList) json) := by
      intro impossible
      cases impossible.1
    rw [and_iff_right noTrip, settled_no_member isSettled]
  | none =>
    cases found : json.find back with
    | some child =>
      have noText : json.equalsText back = false := by
        rw [Bool.eq_false_iff]
        intro isText
        rw [find_of_equalsText isText] at found
        cases found
      rw [contains_true found, noText, Bool.true_or, Bool.true_and]
      simp only [Option.some.injEq, forall_eq', Bool.false_eq_true, false_implies, true_and]
    | none =>
      rw [contains_false found, Bool.false_or]
      simp only [reduceCtorEq, false_implies, implies_true, and_true]
      cases isText : json.equalsText back with
      | false => simp
      | true =>
        have isString := string_back lib back (rest ++ value.toList)
        rw [text_of_equalsText isText]
        simp only [true_and, Bool.true_and, true_implies]
        rw [and_iff_right isString.1, Bool.eq_false_iff, ne_eq, isString.2]
        push Not
        constructor
        · rintro ⟨later, member, different⟩
          rcases mem_append.mp member with inRest | inValue
          · exact ⟨later, inRest, different⟩
          · exact absurd (isBack later (Option.mem_toList.mp inValue)) different
        · rintro ⟨later, member, different⟩
          exact ⟨later, mem_append_left _ member, different⟩

lemma clear_iff {value : Option Text} (isBack : ∀ last, value = some last -> last = back)
    (names : List Text) (json : Json) :
    (¬ Trips lib back (names ++ value.toList) json ∧
      passes lib back (names ++ value.toList) json = leadsToValue lib value names json) <->
      Clear lib back value names json := by
  induction names generalizing json with
  | nil =>
    rw [Clear]
    cases value with
    | none => exact ⟨fun _ last impossible => (by cases impossible), fun _ => ⟨id, rfl⟩⟩
    | some last =>
      have same := isBack last rfl
      subst same
      simp only [Option.some.injEq, forall_eq']
      exact value_clear_iff json
  | cons name rest ih =>
    rw [Clear]
    by_cases same : name = back
    · subst same
      rw [if_pos rfl]
      exact back_clear_iff isBack rest json
    · rw [if_neg same, cons_append, Trips, passes, if_neg same, if_neg same,
        leadsToValue_cons]
      cases found : json.find name with
      | none =>
        simp only [reduceCtorEq, false_and, exists_false, or_false, false_implies, implies_true,
          Bool.not_eq_true]
      | some child =>
        have here := ih child
        simp only [Option.some.injEq, exists_eq_left', forall_eq', not_or, Bool.not_eq_true]
        rw [and_assoc, here]

end

/-- Two filters keep the same items only if they agree on all of them. -/
lemma filter_eq_iff {Item : Type} (first second : Item -> Bool) (items : List Item) :
    items.filter first = items.filter second <-> ∀ item ∈ items, first item = second item := by
  constructor
  · intro same item member
    have both : item ∈ items.filter first <-> item ∈ items.filter second := by rw [same]
    rw [mem_filter, mem_filter, and_iff_right member, and_iff_right member] at both
    exact Bool.eq_iff_iff.mpr both
  · exact filter_congr

section

variable {Object Iterable : Type}

def NestedFilter.selectsMember (service : Service Object Iterable) (lib : NumberLibrary)
    (filter : NestedFilter) (member : RedfishVariant Object Iterable) : Bool :=
  match member.object with
  | some object => filter.selects lib (service.getContentAsJson object)
  | none => false

/-- A list of objects is filtered as it is meant exactly if the filter is clear for all of
them. -/
theorem filterOnPropertyContainingChild_selects_iff (service : Service Object Iterable)
    (lib : NumberLibrary) (filter : NestedFilter) {variant : RedfishVariant Object Iterable}
    {members : Iterable} (isIterable : variant.iterable = some members)
    (areObjects : ∀ member ∈ service.elements members, member.object.isSome = true)
    (temp : List (RedfishVariant Object Iterable)) :
    filterOnPropertyContainingChild service lib filter.text temp variant =
        .ok (temp ++ (service.elements members).filter (filter.selectsMember service lib)) <->
      ∀ member object, member ∈ service.elements members -> member.object = some object ->
        filter.Clear lib (service.getContentAsJson object) := by
  have appends := applyFilter_appends service ((Test.nested filter.pieces).decides service lib)
  have isCandidate : candidates service variant = service.elements members := by
    rw [candidates, isIterable]
  have isBack : ∀ last, filter.value = some last -> last = filter.back := by
    intro last isValue
    rw [NestedFilter.back, NestedFilter.pieces, isValue]
    exact (List.getLastD_concat).symm
  -- What is done with one member, and what is meant for it.
  have agrees : ∀ member object, member.object = some object ->
      ((¬ (Test.nested filter.pieces).Faults lib service member ∧
        (Test.nested filter.pieces).holds lib service member =
          filter.selectsMember service lib member) <->
        filter.Clear lib (service.getContentAsJson object)) := by
    intro member object isObject
    simp only [Test.Faults, Test.holds, NestedFilter.selectsMember, isObject]
    exact clear_iff isBack filter.names _
  rw [filterOnPropertyContainingChild, filter.splitNested_text]
  by_cases faults : ∃ member ∈ service.elements members,
      (Test.nested filter.pieces).Faults lib service member
  · rcases appends.failing temp variant (isCandidate ▸ faults) with ⟨fault, failed, _⟩
    constructor
    · intro selected
      have impossible := failed.symm.trans selected
      cases impossible
    · intro clear
      rcases faults with ⟨member, isMember, fault⟩
      rcases Option.isSome_iff_exists.mp (areObjects member isMember) with ⟨object, isObject⟩
      exact absurd fault ((agrees member object isObject).mpr (clear member object isMember isObject)).1
  · have kept := appends.adding temp variant (isCandidate ▸ faults)
    rw [isCandidate] at kept
    have same : applyFilter service (nestedCondition service lib filter.pieces) temp variant =
        .ok (temp ++ (service.elements members).filter (filter.selectsMember service lib)) <->
        ∀ member ∈ service.elements members,
          (Test.nested filter.pieces).holds lib service member =
            filter.selectsMember service lib member := by
      rw [<- filter_eq_iff]
      constructor
      · intro selected
        exact List.append_cancel_left (Except.ok.inj (kept.symm.trans selected))
      · intro selected
        exact kept.trans (by rw [selected])
    rw [same]
    constructor
    · intro all member object isMember isObject
      exact (agrees member object isObject).mp
        ⟨fun fault => faults ⟨member, isMember, fault⟩, all member isMember⟩
    · intro clear member isMember
      rcases Option.isSome_iff_exists.mp (areObjects member isMember) with ⟨object, isObject⟩
      exact ((agrees member object isObject).mpr (clear member object isMember isObject)).2

end

/-- A service whose objects are payloads, and whose iterables are lists of them. -/
def payloadService : Service Json (List Json) where
  getRoot _ _ := .ofStatus (.notFound [])
  property _ _ := .ofStatus (.notFound [])
  get _ _ _ := .ofStatus (.notFound [])
  getUriString _ := none
  size members := members.length
  element members index :=
    match members[index]? with
    | some member => .ofObject member
    | none => .ofStatus (.notFound [])
  getContentAsJson := id

def healthOk : NestedFilter where
  names := [text "Status", text "Health"]
  value := some (text "OK")
  named := List.cons_ne_nil _ _
  plain := by decide

def statusHealth : NestedFilter where
  names := [text "Status", text "Health"]
  value := none
  named := List.cons_ne_nil _ _
  plain := by decide

def healthyMember : Json :=
  .object [(text "Status", .object [(text "Health", .string (text "OK"))])]

/-- One of two members has the value. -/
theorem filterOnPropertyContainingChild_healthy :
    filterOnPropertyContainingChild payloadService integerNumbers healthOk.text []
        (.ofIterable [healthyMember, .object []]) =
      .ok ([] ++ (payloadService.elements [healthyMember, .object []]).filter
        (healthOk.selectsMember payloadService integerNumbers)) := by
  apply (filterOnPropertyContainingChild_selects_iff payloadService integerNumbers healthOk rfl
    (by decide) []).mpr
  have followed : ∀ (names : List Text) (name : Text) (json : Json), name ≠ text "OK" ->
      (∀ child, json.find name = some child ->
        Clear integerNumbers (text "OK") (some (text "OK")) names child) ->
      json.equalsText name = false ->
      Clear integerNumbers (text "OK") (some (text "OK")) (name :: names) json := by
    intro names name json other later noText
    rw [Clear, if_neg other]
    exact ⟨noText, later⟩
  intro member object isMember isObject
  rcases List.mem_cons.mp isMember with healthy | empty
  · subst healthy
    cases isObject
    apply followed _ _ _ (by decide) _ rfl
    intro child found
    cases found
    apply followed _ _ _ (by decide) _ rfl
    intro health found
    cases found
    intro last same
    trivial
  · rw [List.mem_singleton.mp empty] at isObject
    cases isObject
    apply followed _ _ _ (by decide) _ rfl
    intro child found
    cases found

/-- A text is taken for the property whose name it is. -/
theorem filterOnPropertyContainingChild_text :
    filterOnPropertyContainingChild payloadService integerNumbers statusHealth.text []
        (.ofIterable [.object [(text "Status", .string (text "Health"))]]) =
      .ok [.ofObject (.object [(text "Status", .string (text "Health"))])] ∧
    statusHealth.selectsMember payloadService integerNumbers
      (.ofObject (.object [(text "Status", .string (text "Health"))])) = false :=
  ⟨rfl, rfl⟩

end Ecclesia.RedPath
