import Ecclesia.Query.Converter

namespace Ecclesia

open List
open Prod (fst)

/-!
# Round trips through JSON

A JSON value that is converted to a query value and back is the same value again, and so is a
query value, but for what an identifier does not write down.  Objects and fields are maps: two
of them are equal if they have the same keys and equal values under them, in whatever order.
-/

/-! ## Maps -/

section

variable {First Second : Type}

/-- Two maps have the same keys, and related values under them. -/
def RelatedMaps (related : First -> Second -> Prop) (first : List (Text × First))
    (second : List (Text × Second)) : Prop :=
  (∀ key, (first.lookup key).isSome = (second.lookup key).isSome) ∧
    ∀ entry ∈ first, ∃ value, second.lookup entry.1 = some value ∧ related entry.2 value

/-- A map after some entries have been made. -/
structure FilledWith (entries start result : List (Text × First)) : Prop where
  source : ∀ entry ∈ result, entry ∈ entries ∨ entry ∈ start
  keys : ∀ key, (result.lookup key).isSome = true ↔
    key ∈ entries.map Prod.fst ∨ (start.lookup key).isSome = true

lemma FilledWith.refl (map : List (Text × First)) : FilledWith [] map map where
  source _ member := .inr member
  keys key := by simp

lemma FilledWith.cons {entry : Text × First} {entries start entered result : List (Text × First)}
    (filled : FilledWith entries entered result)
    (source : ∀ other ∈ entered, other = entry ∨ other ∈ start)
    (keys : ∀ key, (entered.lookup key).isSome = true ↔
      key = entry.1 ∨ (start.lookup key).isSome = true) :
    FilledWith (entry :: entries) start result where
  source other member := by
    rcases filled.source other member with later | before
    · exact .inl (.tail _ later)
    · rcases source other before with same | old
      · exact .inl (same ▸ .head _)
      · exact .inr old
  keys key := by
    rw [filled.keys, keys, map_cons, mem_cons]
    tauto

variable {second : List (Text × Second)}

lemma FilledWith.related {related : First -> Second -> Prop} {entries result : List (Text × First)}
    (filled : FilledWith entries [] result)
    (keys : ∀ key, key ∈ entries.map fst ↔ (second.lookup key).isSome = true)
    (values : ∀ entry ∈ entries,
      ∃ value, second.lookup entry.1 = some value ∧ related entry.2 value) :
    RelatedMaps related result second := by
  constructor
  · intro key
    rw [Bool.eq_iff_iff, filled.keys, keys]
    simp
  · intro entry member
    rcases filled.source entry member with entered | impossible
    · exact values entry entered
    · cases impossible

lemma forall₂_keys (related : First -> Second -> Prop) {first : List (Text × First)}
    (each : Forall₂ (fun one other => one.1 = other.1 ∧ related one.2 other.2) first second) :
    first.map fst = second.map fst := by
  induction each with
  | nil => rfl
  | cons head _ ih => rw [map_cons, map_cons, head.1, ih]

variable {first : List First}

lemma forall₂_compose {Third : Type} {related : First -> Third -> Prop}
    {others : Second -> Third -> Prop} {both : First -> Second -> Prop}
    (joins : ∀ one other third, related one third -> others other third -> both one other)
    {second : List Second} {third : List Third} (left : Forall₂ related first third)
    (right : Forall₂ others second third) : Forall₂ both first second := by
  induction left generalizing second with
  | nil =>
    cases right
    exact .nil
  | cons head _ ih =>
    cases right with
    | cons other rest => exact .cons (joins _ _ _ head other) (ih rest)

lemma forall₂_between {Third : Type} {related : First -> Third -> Prop}
    {left : First -> Second -> Prop} {right : Second -> Third -> Prop} {third : List Third}
    (each : ∀ item ∈ third, ∀ one, related one item ->
      ∃ middle, left one middle ∧ right middle item) (all : Forall₂ related first third) :
    ∃ second, Forall₂ left first second ∧ Forall₂ right second third := by
  induction all with
  | nil => exact ⟨[], .nil, .nil⟩
  | cons head _ ih =>
    rw [forall_mem_cons] at each
    rcases each.1 _ head with ⟨middle, toLeft, toRight⟩
    rcases ih each.2 with ⟨second, lefts, rights⟩
    exact ⟨middle :: second, .cons toLeft lefts, .cons toRight rights⟩

lemma forall₂_mem_right {related : First -> Second -> Prop}
    {second : List Second} (each : Forall₂ related first second) {other : Second}
    (member : other ∈ second) : ∃ one ∈ first, related one other := by
  induction each with
  | nil => cases member
  | cons head _ ih =>
    rcases mem_cons.mp member with same | later
    · subst same
      exact ⟨_, .head _, head⟩
    · rcases ih later with ⟨one, isOne, holds⟩
      exact ⟨one, .tail _ isOne, holds⟩

end

lemma lookup_insertMember (name other : Text) (value : Json) (members : List (Text × Json)) :
    (Json.insertMember name value members).lookup other =
      if other = name then some value else members.lookup other := by
  induction members with
  | nil =>
    rw [Json.insertMember, lookup_cons]
    by_cases same : other = name
    · rw [same, BEq.rfl, if_pos rfl]
    · rw [beq_false_of_ne same, if_neg same]
  | cons member rest ih =>
    rcases member with ⟨present, current⟩
    rw [Json.insertMember]
    split
    · rename_i found
      subst found
      rw [lookup_cons, lookup_cons]
      by_cases same : other = present
      · rw [same, BEq.rfl, if_pos rfl]
      · rw [beq_false_of_ne same, if_neg same]
    · rename_i absent
      split
      · rw [lookup_cons]
        by_cases same : other = name
        · rw [same, BEq.rfl, if_pos rfl]
        · rw [beq_false_of_ne same, if_neg same]
      · rw [lookup_cons, lookup_cons, ih]
        by_cases same : other = present
        · rw [same, if_neg absent, if_neg absent]
        · rw [beq_false_of_ne same]

variable {name : Text} {members : List (Text × Json)}

variable {member : Text × Json} {value : Json}

lemma mem_insertMember (inserted : member ∈ Json.insertMember name value members) :
    member = (name, value) ∨ member ∈ members := by
  induction members with
  | nil => exact .inl (mem_singleton.mp inserted)
  | cons first rest ih =>
    rcases first with ⟨present, current⟩
    rw [Json.insertMember] at inserted
    split at inserted
    · rcases mem_cons.mp inserted with same | later
      · exact .inl same
      · exact .inr (.tail _ later)
    · split at inserted
      · exact mem_cons.mp inserted
      · rcases mem_cons.mp inserted with same | later
        · exact .inr (same ▸ .head _)
        · rcases ih later with same | old
          · exact .inl same
          · exact .inr (.tail _ old)

lemma mem_setField {value : QueryValue} {fields : QueryResultData} {field : Text × QueryValue}
    (set : field ∈ setField name value fields) : field = (name, value) ∨ field ∈ fields := by
  induction fields with
  | nil => exact .inl (mem_singleton.mp set)
  | cons first rest ih =>
    rcases first with ⟨present, current⟩
    rw [setField] at set
    split at set
    · rename_i found
      rcases mem_cons.mp set with same | later
      · exact .inl (found ▸ same)
      · exact .inr (.tail _ later)
    · rcases mem_cons.mp set with same | later
      · exact .inr (same ▸ .head _)
      · rcases ih later with same | old
        · exact .inl same
        · exact .inr (.tail _ old)

/-! ## Equality -/

mutual

/-- The equality of JSON values.  A number is equal to one of the other signedness. -/
def Json.Equal : Json -> Json -> Prop
  | .null, .null => True
  | .boolean first, .boolean second => first = second
  | .integer first, .integer second => first = second
  | .integer first, .unsigned second => first = second
  | .unsigned first, .integer second => first = second
  | .unsigned first, .unsigned second => first = second
  | .float first, .float second => first = second
  | .string first, .string second => first = second
  | .array first, .array second => Json.EqualElements first second
  | .object first, .object second =>
    (∀ key, (first.lookup key).isSome = (second.lookup key).isSome) ∧ Json.EqualMembers first second
  | _, _ => False

def Json.EqualElements : List Json -> List Json -> Prop
  | [], [] => True
  | first :: firsts, second :: seconds =>
    Json.Equal first second ∧ Json.EqualElements firsts seconds
  | _, _ => False

def Json.EqualMembers : List (Text × Json) -> List (Text × Json) -> Prop
  | [], _ => True
  | (name, value) :: rest, members =>
    (∃ found, members.lookup name = some found ∧ Json.Equal value found) ∧
      Json.EqualMembers rest members

end

mutual

def QueryValue.Equal : QueryValue -> QueryValue -> Prop
  | .subquery first, .subquery second =>
    (∀ key, (first.lookup key).isSome = (second.lookup key).isSome) ∧
      QueryValue.EqualFields first second
  | .list first, .list second => QueryValue.EqualValues first second
  | .subquery _, _ | .list _, _ => False
  | first, second => first = second

def QueryValue.EqualValues : List QueryValue -> List QueryValue -> Prop
  | [], [] => True
  | first :: firsts, second :: seconds =>
    QueryValue.Equal first second ∧ QueryValue.EqualValues firsts seconds
  | _, _ => False

def QueryValue.EqualFields : QueryResultData -> QueryResultData -> Prop
  | [], _ => True
  | (name, value) :: rest, fields =>
    (∃ found, fields.lookup name = some found ∧ QueryValue.Equal value found) ∧
      QueryValue.EqualFields rest fields

end

lemma QueryValue.eq_of_equal {first second : QueryValue} (isLeaf : match second with
      | .subquery _ | .list _ => False
      | _ => True) (equal : QueryValue.Equal first second) : first = second := by
  cases second with
  | subquery fields => cases isLeaf
  | list values => cases isLeaf
  | _ =>
    cases first <;> first
      | exact equal
      | cases equal

lemma Json.equal_array {first second : List Json} :
    Json.Equal (.array first) (.array second) ↔ Forall₂ Json.Equal first second := by
  rw [Json.Equal]
  induction first generalizing second with
  | nil => cases second <;> simp [Json.EqualElements]
  | cons element rest ih =>
    cases second with
    | nil => simp [Json.EqualElements]
    | cons other others => rw [Json.EqualElements, forall₂_cons, ih]

lemma Json.equal_object {first second : List (Text × Json)} :
    Json.Equal (.object first) (.object second) ↔ RelatedMaps Json.Equal first second := by
  apply and_congr_right'
  induction first with
  | nil => simp [Json.EqualMembers]
  | cons member rest ih => rw [Json.EqualMembers, forall_mem_cons, ih]

lemma QueryValue.equal_list {first second : List QueryValue} :
    QueryValue.Equal (.list first) (.list second) ↔ Forall₂ QueryValue.Equal first second := by
  rw [QueryValue.Equal]
  induction first generalizing second with
  | nil => cases second <;> simp [QueryValue.EqualValues]
  | cons value rest ih =>
    cases second with
    | nil => simp [QueryValue.EqualValues]
    | cons other others => rw [QueryValue.EqualValues, forall₂_cons, ih]

lemma QueryValue.equal_subquery {first second : QueryResultData} :
    QueryValue.Equal (.subquery first) (.subquery second) ↔
      RelatedMaps QueryValue.Equal first second := by
  apply and_congr_right'
  induction first with
  | nil => simp [QueryValue.EqualFields]
  | cons field rest ih => rw [QueryValue.EqualFields, forall_mem_cons, ih]

/-! ## Values that are equal to themselves -/

def Json.DistinctKeys : Json -> Prop
  | .object members => (members.map Prod.fst).Nodup
  | .discarded => False
  | _ => True

def QueryValue.DistinctKeys : QueryValue -> Prop
  | .subquery fields => (fields.map Prod.fst).Nodup
  | _ => True

open QueryValue (DistinctKeys Equal EqualFields EqualValues)

lemma relatedMaps_refl {Value : Type} {related : Value -> Value -> Prop} {map : List (Text × Value)}
    (distinct : (map.map fst).Nodup) (each : ∀ entry ∈ map, related entry.2 entry.2) :
    RelatedMaps related map map := by
  refine ⟨fun _ => rfl, fun entry member => ⟨entry.2, ?_, each entry member⟩⟩
  exact (lookup_eq_some_iff_mem distinct).mpr member

lemma Json.equal_refl : ∀ json, Everywhere Json.parts Json.DistinctKeys json ->
    Json.Equal json json := by
  refine Json.induction_on_parts fun json ih distinct => ?_
  rcases everywhere_iff.mp distinct with ⟨here, each⟩
  cases json with
  | object members =>
    rw [Json.equal_object]
    refine relatedMaps_refl here fun member isMember => ?_
    have isPart : member.2 ∈ (Json.object members).parts := mem_map_of_mem isMember
    exact ih member.2 isPart (each member.2 isPart)
  | array elements =>
    rw [Json.equal_array, forall₂_same]
    exact fun element isElement => ih element isElement (each element isElement)
  | discarded => cases here
  | null => trivial
  | _ => rfl

lemma QueryValue.equal_refl : ∀ value,
    Everywhere QueryValue.parts DistinctKeys value -> Equal value value := by
  refine QueryValue.induction_on_parts fun value ih distinct => ?_
  rcases everywhere_iff.mp distinct with ⟨here, each⟩
  cases value with
  | subquery fields =>
    rw [QueryValue.equal_subquery]
    refine relatedMaps_refl here fun field isField => ?_
    have isPart : field.2 ∈ (QueryValue.subquery fields).parts := mem_map_of_mem isField
    exact ih field.2 isPart (each field.2 isPart)
  | list values =>
    rw [QueryValue.equal_list, forall₂_same]
    exact fun value isValue => ih value isValue (each value isValue)
  | _ => rfl

lemma mem_keys_insertMember {other : Text} :
    other ∈ (Json.insertMember name value members).map fst ↔
      other = name ∨ other ∈ members.map fst := by
  rw [<- lookup_isSome_iff, lookup_insertMember]
  by_cases same : other = name
  · simp [same]
  · simp [same]

lemma nodup_insertMember (absent : name ∉ members.map fst) (distinct : (members.map fst).Nodup) :
    ((Json.insertMember name value members).map fst).Nodup := by
  induction members with
  | nil => exact nodup_singleton name
  | cons member rest ih =>
    rcases member with ⟨present, current⟩
    rw [map_cons, mem_cons, not_or] at absent
    rcases nodup_cons.mp distinct with ⟨unique, distinctRest⟩
    rw [Json.insertMember, if_neg (Ne.symm absent.1)]
    split
    · exact nodup_cons.mpr ⟨not_mem_cons_of_ne_of_not_mem absent.1 absent.2, distinct⟩
    · refine nodup_cons.mpr ⟨fun inside => ?_, ih absent.2 distinctRest⟩
      rcases mem_keys_insertMember.mp inside with same | later
      · exact absent.1 same.symm
      · exact unique later

namespace Query

open Absl

/-! ## Plain data -/

/-- The keys by which an identifier is known. -/
def identifierTags : List Text :=
  [kLocalDevpathTag, kMachineDevpathTag, kEmbeddedLocationContextTag]

/-- What is asked of every value in a JSON value.  The names of an object differ. -/
def PlainJson : Json -> Prop
  | .integer value => -2 ^ 63 <= value ∧ value < 2 ^ 63
  | .unsigned value => value < 2 ^ 63
  | .string value => isRedfishDatetime value = false
  | .object members => (members.map Prod.fst).Nodup ∧
      ∀ tag ∈ identifierTags, tag ∉ members.map Prod.fst
  | .discarded => False
  | _ => True

/-- A field of an identifier that is set and not empty. -/
def written (field : Option Text) : Option Text :=
  field.filter fun value => !value.isEmpty

/-- The part of an identifier that is written down. -/
def writtenIdentifier (identifier : Identifier) : Identifier :=
  ⟨written identifier.localDevpath, written identifier.machineDevpath,
    written identifier.embeddedLocationContext, none, none⟩

/-- What is asked of every value in a query value.  The keys of a subquery differ. -/
def PlainValue : QueryValue -> Prop
  | .int value => -2 ^ 63 <= value ∧ value < 2 ^ 63
  | .double _ | .bool _ | .null | .list _ => True
  | .string value => isRedfishDatetime value = false
  | .subquery fields => (fields.map Prod.fst).Nodup ∧
      ∀ tag ∈ identifierTags, tag ∉ fields.map Prod.fst
  | .identifier identifier => writtenIdentifier identifier ≠ .empty
  | _ => False

def writtenValue : QueryValue -> QueryValue
  | .identifier identifier => .identifier (writtenIdentifier identifier)
  | .subquery fields => .subquery (writtenFields fields)
  | .list values => .list (writtenValues values)
  | value => value
where
  writtenFields : QueryResultData -> QueryResultData
    | [] => []
    | (key, value) :: rest => (key, writtenValue value) :: writtenFields rest
  writtenValues : List QueryValue -> List QueryValue
    | [] => []
    | value :: rest => writtenValue value :: writtenValues rest

def Unabridged : QueryValue -> Prop
  | .identifier identifier => writtenIdentifier identifier = identifier
  | _ => True

section

variable (library : TimeLibrary)

/-! ## The loops -/

lemma fieldsToJson_filled (fields : QueryResultData) : ∀ members,
    FilledWith (fields.map fun field => (field.1, valueToJson library field.2)) members
      (fieldsToJson library fields members) := by
  induction fields with
  | nil =>
    intro members
    exact .refl members
  | cons field rest ih =>
    intro members
    refine (ih _).cons (fun other member => mem_insertMember member) fun key => ?_
    rw [lookup_insertMember]
    split
    · rename_i same
      simp [same]
    · rename_i differs
      simp [differs]

lemma listValueToJson_eq (values : List QueryValue) :
    listValueToJson library values = values.map (valueToJson library) := by
  induction values with
  | nil => rfl
  | cons value rest ih =>
    rw [listValueToJson, ih]
    rfl

lemma writtenFields_eq (fields : QueryResultData) :
    writtenValue.writtenFields fields =
      fields.map fun field => (field.1, writtenValue field.2) := by
  induction fields with
  | nil => rfl
  | cons field rest ih =>
    rw [writtenValue.writtenFields, ih]
    rfl

lemma writtenValues_eq (values : List QueryValue) :
    writtenValue.writtenValues values = values.map writtenValue := by
  induction values with
  | nil => rfl
  | cons value rest ih =>
    rw [writtenValue.writtenValues, ih]
    rfl

/-- Nothing is lost if every identifier is written down as a whole. -/
lemma writtenValue_unabridged : ∀ value, Everywhere QueryValue.parts Unabridged value ->
    writtenValue value = value := by
  refine QueryValue.induction_on_parts fun value ih unabridged => ?_
  rcases everywhere_iff.mp unabridged with ⟨here, each⟩
  cases value with
  | subquery fields =>
    rw [writtenValue, writtenFields_eq]
    have same : (fields.map fun field => (field.1, writtenValue field.2)) =
        fields.map fun field => field := by
      apply map_congr_left
      intro field isField
      have isPart : field.2 ∈ (QueryValue.subquery fields).parts := mem_map_of_mem isField
      rw [ih field.2 isPart (each field.2 isPart)]
    rw [same, map_id']
  | list values =>
    rw [writtenValue, writtenValues_eq]
    have same : values.map writtenValue = values.map fun value => value := by
      apply map_congr_left
      intro value isValue
      exact ih value isValue (each value isValue)
    rw [same, map_id']
  | identifier identifier => exact congrArg QueryValue.identifier here
  | _ => rfl

variable {members : List (Text × Json)}

lemma jsonToQueryResultData_filled {converted : QueryResultData}
    (converts : Forall₂ (fun member field => member.1 = field.1 ∧
      jsonToQueryValue library member.2 = .ok field.2) members converted) :
    ∀ fields, ∃ after, jsonToQueryResultData library members fields = .ok after ∧
      FilledWith converted fields after := by
  induction converts with
  | nil =>
    intro fields
    exact ⟨fields, rfl, .refl fields⟩
  | @cons member field members converted first _ ih =>
    intro fields
    rcases member with ⟨key, json⟩
    rcases ih (setField key field.2 fields) with ⟨after, looped, filled⟩
    refine ⟨after, ?_, filled.cons ?_ ?_⟩
    · rw [jsonToQueryResultData, first.2]
      exact looped
    · intro other isField
      rcases mem_setField isField with same | old
      · have keys : key = field.1 := first.1
        rw [same, keys]
        exact .inl rfl
      · exact .inr old
    · intro name
      have keys : key = field.1 := first.1
      rw [lookup_setField, keys]
      split
      · rename_i same
        simp [same]
      · rename_i differs
        simp [differs]

lemma jsonToQueryListValue_forall {elements : List Json} {values : List QueryValue}
    (converts : Forall₂ (fun element value => jsonToQueryValue library element = .ok value)
      elements values) : jsonToQueryListValue library elements = .ok values := by
  induction converts with
  | nil => rfl
  | cons first _ ih =>
    rw [jsonToQueryListValue, first, ih]
    rfl

lemma exists_forall₂ {Item Answer : Type} {answers : Item -> Answer -> Prop} (items : List Item)
    (each : ∀ item ∈ items, ∃ answer, answers item answer) :
    ∃ list, Forall₂ answers items list := by
  induction items with
  | nil => exact ⟨[], .nil⟩
  | cons item rest ih =>
    rw [forall_mem_cons] at each
    rcases each.1 with ⟨answer, first⟩
    rcases ih each.2 with ⟨list, others⟩
    exact ⟨answer :: list, .cons first others⟩

/-! ## Identifiers -/

lemma tags_distinct :
    kLocalDevpathTag ≠ kMachineDevpathTag ∧ kLocalDevpathTag ≠ kEmbeddedLocationContextTag ∧
      kMachineDevpathTag ≠ kEmbeddedLocationContextTag := by
  decide

lemma identifierFromMembers_untagged (members : List (Text × Json)) (identifier : Identifier)
    (untagged : ∀ tag ∈ identifierTags, tag ∉ members.map fst) :
    identifierFromMembers members identifier = .ok identifier := by
  induction members with
  | nil => rfl
  | cons member rest ih =>
    rcases member with ⟨key, value⟩
    have apart : ∀ tag ∈ identifierTags, key ≠ tag := by
      intro tag isTag same
      exact untagged tag isTag (same ▸ .head _)
    rw [identifierFromMembers, if_neg (apart _ (.head _)), if_neg (apart _ (.tail _ (.head _))),
      if_neg (apart _ (.tail _ (.tail _ (.head _))))]
    exact ih fun tag isTag later => untagged tag isTag (.tail _ later)

lemma jsonToIdentifierValue_untagged (members : List (Text × Json))
    (untagged : ∀ tag ∈ identifierTags, tag ∉ members.map fst) :
    jsonToIdentifierValue members = .ok none := by
  rw [jsonToIdentifierValue, identifierFromMembers_untagged members .empty untagged]
  rfl

lemma lookup_insertTag (tag : Text) (field : Option Text) (members : List (Text × Json))
    (key : Text) :
    (insertTag tag field members).lookup key =
      if key = tag then ((written field).map Json.string).or (members.lookup key)
      else members.lookup key := by
  cases field with
  | none =>
    change members.lookup key = if key = tag then members.lookup key else members.lookup key
    rw [ite_self]
  | some value =>
    cases value with
    | nil =>
      change members.lookup key = if key = tag then members.lookup key else members.lookup key
      rw [ite_self]
    | cons c rest => exact lookup_insertMember tag key (.string (c :: rest)) members

lemma identifierValueToJson_members (identifier : Identifier) :
    ∃ members, identifierValueToJson identifier = .object members ∧
      members.lookup kLocalDevpathTag = (written identifier.localDevpath).map .string ∧
      members.lookup kMachineDevpathTag = (written identifier.machineDevpath).map .string ∧
      members.lookup kEmbeddedLocationContextTag =
        (written identifier.embeddedLocationContext).map .string ∧
      ∀ key, key ∉ identifierTags -> members.lookup key = none := by
  rcases tags_distinct with ⟨localMachine, localContext, machineContext⟩
  refine ⟨_, rfl, ?_, ?_, ?_, ?_⟩
  · rw [lookup_insertTag, if_neg localContext, lookup_insertTag, if_neg localMachine,
      lookup_insertTag, if_pos rfl, lookup_nil, Option.or_none]
  · rw [lookup_insertTag, if_neg machineContext, lookup_insertTag, if_pos rfl, lookup_insertTag,
      if_neg localMachine.symm, lookup_nil, Option.or_none]
  · rw [lookup_insertTag, if_pos rfl, lookup_insertTag, if_neg machineContext.symm,
      lookup_insertTag, if_neg localContext.symm, lookup_nil, Option.or_none]
  · intro key other
    have apart : ∀ tag ∈ identifierTags, key ≠ tag := fun tag isTag same =>
      other (same ▸ isTag)
    rw [lookup_insertTag, if_neg (apart _ (.tail _ (.tail _ (.head _)))), lookup_insertTag,
      if_neg (apart _ (.tail _ (.head _))), lookup_insertTag, if_neg (apart _ (.head _)),
      lookup_nil]

/-- The field of an identifier after the members have been read, of which one may be its tag. -/
def readTag (tag : Text) (members : List (Text × Json)) (texts : Text -> Option Text)
    (start : Option Text) : Option Text :=
  if tag ∈ members.map Prod.fst then texts tag else start

lemma identifierFromMembers_reads (texts : Text -> Option Text) (members : List (Text × Json))
    (reads : ∀ member ∈ members, member.1 ∈ identifierTags ∧
      ∃ value, member.2 = .string value ∧ texts member.1 = some value) : ∀ start,
    identifierFromMembers members start = .ok { start with
      localDevpath := readTag kLocalDevpathTag members texts start.localDevpath
      machineDevpath := readTag kMachineDevpathTag members texts start.machineDevpath
      embeddedLocationContext :=
        readTag kEmbeddedLocationContextTag members texts start.embeddedLocationContext } := by
  rcases tags_distinct with ⟨localMachine, localContext, machineContext⟩
  induction members with
  | nil =>
    intro start
    rfl
  | cons member rest ih =>
    intro start
    rcases member with ⟨key, json⟩
    rw [forall_mem_cons] at reads
    rcases reads.1 with ⟨isTag, value, isText, isValue⟩
    subst isText
    have later : ∀ tag, tag ≠ key -> ∀ start : Option Text,
        readTag tag ((key, .string value) :: rest) texts start = readTag tag rest texts start := by
      intro tag differs start
      have keys : tag ∈ ((key, Json.string value) :: rest).map fst ↔ tag ∈ rest.map fst := by
        rw [map_cons, mem_cons, or_iff_right differs]
      exact if_congr keys rfl rfl
    have own : ∀ tag, tag = key -> ∀ start : Option Text,
        readTag tag ((key, .string value) :: rest) texts start =
          readTag tag rest texts (some value) := by
      intro tag same start
      rw [readTag, readTag, same, if_pos (.head _), isValue, ite_self]
    rw [identifierFromMembers]
    simp only [identifierTags, mem_cons, not_mem_nil, or_false] at isTag
    rcases isTag with same | same | same
    · rw [if_pos same, own _ same.symm, later _ (same ▸ localMachine.symm),
        later _ (same ▸ localContext.symm)]
      exact ih reads.2 _
    · rw [if_neg (same ▸ localMachine.symm), if_pos same, own _ same.symm,
        later _ (same ▸ localMachine), later _ (same ▸ machineContext.symm)]
      exact ih reads.2 _
    · rw [if_neg (same ▸ localContext.symm), if_neg (same ▸ machineContext.symm), if_pos same,
        own _ same.symm, later _ (same ▸ localContext), later _ (same ▸ machineContext)]
      exact ih reads.2 _

lemma jsonToIdentifierValue_written {identifier : Identifier}
    (named : writtenIdentifier identifier ≠ .empty)
    (equal : Json.Equal (.object members) (identifierValueToJson identifier)) :
    jsonToIdentifierValue members = .ok (some (writtenIdentifier identifier)) := by
  rcases identifierValueToJson_members identifier with
    ⟨origin, isObject, devpath, machine, locationContext, others⟩
  rw [isObject, Json.equal_object] at equal
  rcases equal with ⟨keys, entries⟩
  have reads : ∀ member ∈ members, member.1 ∈ identifierTags ∧
      ∃ value, member.2 = .string value ∧
        (origin.lookup member.1).bind Json.string? = some value := by
    intro member isMember
    rcases entries member isMember with ⟨found, looked, same⟩
    by_cases isTag : member.1 ∈ identifierTags
    · have isText : ∃ value, found = .string value := by
        have tag := isTag
        simp only [identifierTags, mem_cons, not_mem_nil, or_false] at tag
        have written : ∃ field : Option Text, origin.lookup member.1 = field.map Json.string := by
          rcases tag with tag | tag | tag
          · exact ⟨_, tag ▸ devpath⟩
          · exact ⟨_, tag ▸ machine⟩
          · exact ⟨_, tag ▸ locationContext⟩
        rcases written with ⟨field, isField⟩
        rw [looked] at isField
        rcases Option.map_eq_some_iff.mp isField.symm with ⟨value, _, isValue⟩
        exact ⟨value, isValue.symm⟩
      rcases isText with ⟨value, isValue⟩
      subst isValue
      refine ⟨isTag, value, ?_, ?_⟩
      · cases text : member.2 with
        | string other =>
          rw [text] at same
          rw [same]
        | _ =>
          rw [text] at same
          cases same
      · rw [looked]
        rfl
    · rw [others member.1 isTag] at looked
      cases looked
  have field : ∀ tag value, origin.lookup tag = value.map Json.string ->
      readTag tag members (fun key => (origin.lookup key).bind Json.string?) none = value := by
    intro tag value looked
    have present : tag ∈ members.map fst ↔ value.isSome = true := by
      rw [<- lookup_isSome_iff, keys, looked, Option.isSome_map]
    unfold readTag
    dsimp only
    rw [looked]
    cases value with
    | none => rw [if_neg fun inside => Bool.noConfusion (present.mp inside)]
    | some value =>
      rw [if_pos (present.mpr rfl)]
      rfl
  have some : ((written identifier.localDevpath).isSome || (written identifier.machineDevpath).isSome ||
      (written identifier.embeddedLocationContext).isSome) = true := by
    by_contra missing
    apply named
    simp only [Bool.or_eq_true, not_or, Bool.not_eq_true, Option.isSome_eq_false_iff,
      Option.isNone_iff_eq_none] at missing
    rw [writtenIdentifier, missing.1.1, missing.1.2, missing.2]
    rfl
  rw [jsonToIdentifierValue,
    identifierFromMembers_reads (fun key => (origin.lookup key).bind Json.string?) members reads]
  dsimp only [bind, Except.bind, Identifier.empty]
  rw [field _ _ devpath, field _ _ machine, field _ _ locationContext, if_pos some]
  rfl

/-! ## Distinct keys -/

lemma fieldsToJson_nodup (fields : QueryResultData) (distinct : (fields.map fst).Nodup) :
    ∀ members, (∀ key ∈ fields.map fst, key ∉ members.map fst) ->
      (members.map fst).Nodup ->
      ((fieldsToJson library fields members).map fst).Nodup := by
  induction fields with
  | nil => exact fun _ _ distinct => distinct
  | cons field rest ih =>
    rcases field with ⟨key, value⟩
    rcases nodup_cons.mp distinct with ⟨unique, distinctRest⟩
    intro members apart distinctMembers
    apply ih distinctRest
    · intro other isLater inside
      rcases mem_keys_insertMember.mp inside with same | old
      · exact unique (same ▸ isLater)
      · exact apart other (.tail _ isLater) old
    · exact nodup_insertMember (apart key (.head _)) distinctMembers

lemma insertTag_nodup {tag : Text} {field : Option Text} (absent : members.lookup tag = none)
    (distinct : (members.map fst).Nodup) : ((insertTag tag field members).map fst).Nodup := by
  have new : tag ∉ members.map fst := by
    rw [<- lookup_isSome_iff, absent]
    exact Bool.false_ne_true
  unfold insertTag
  split
  · exact nodup_insertMember new distinct
  · exact distinct

lemma mem_insertTag {tag : Text} {field : Option Text}
    (inserted : member ∈ insertTag tag field members) :
    (∃ value, member.2 = .string value) ∨ member ∈ members := by
  unfold insertTag at inserted
  split at inserted
  · rcases mem_insertMember inserted with same | old
    · rw [same]
      exact .inl ⟨_, rfl⟩
    · exact .inr old
  · exact .inr inserted

lemma identifierValueToJson_distinct (identifier : Identifier) :
    Everywhere Json.parts Json.DistinctKeys (identifierValueToJson identifier) := by
  rcases tags_distinct with ⟨localMachine, localContext, machineContext⟩
  rw [everywhere_iff]
  constructor
  · apply insertTag_nodup
    · rw [lookup_insertTag, if_neg machineContext.symm, lookup_insertTag, if_neg localContext.symm,
        lookup_nil]
    · apply insertTag_nodup
      · rw [lookup_insertTag, if_neg localMachine.symm, lookup_nil]
      · exact insertTag_nodup rfl nodup_nil
  · intro child isPart
    rcases mem_map.mp isPart with ⟨member, isMember, same⟩
    subst same
    have isText : ∃ value, member.2 = .string value := by
      rcases mem_insertTag isMember with isText | earlier
      · exact isText
      · rcases mem_insertTag earlier with isText | first
        · exact isText
        · rcases mem_insertTag first with isText | impossible
          · exact isText
          · cases impossible
    rcases isText with ⟨value, isText⟩
    rw [isText, everywhere_iff]
    refine ⟨trivial, fun child impossible => ?_⟩
    cases impossible

lemma valueToJson_distinct : ∀ value, Everywhere QueryValue.parts PlainValue value ->
    Everywhere Json.parts Json.DistinctKeys (valueToJson library value) := by
  refine QueryValue.induction_on_parts fun value ih plain => ?_
  rcases everywhere_iff.mp plain with ⟨here, each⟩
  cases value with
  | subquery fields =>
    rw [everywhere_iff]
    constructor
    · exact fieldsToJson_nodup library fields here.1 [] (fun _ _ => not_mem_nil) nodup_nil
    · intro child isPart
      rcases mem_map.mp isPart with ⟨member, isMember, same⟩
      subst same
      rcases (fieldsToJson_filled library fields []).source member isMember with
        entered | impossible
      · rcases mem_map.mp entered with ⟨field, isField, same⟩
        subst same
        have isPart : field.2 ∈ (QueryValue.subquery fields).parts := mem_map_of_mem isField
        exact ih field.2 isPart (each field.2 isPart)
      · cases impossible
  | list values =>
    rw [valueToJson, listValueToJson_eq, everywhere_iff]
    refine ⟨trivial, fun child isPart => ?_⟩
    rcases mem_map.mp isPart with ⟨value, isValue, same⟩
    subst same
    exact ih value isValue (each value isValue)
  | identifier identifier => exact identifierValueToJson_distinct identifier
  | notSet => cases here
  | timestamp _ _ => cases here
  | rawUnset => cases here
  | rawString _ => cases here
  | rawBytes _ => cases here
  | _ =>
    rw [everywhere_iff]
    refine ⟨trivial, fun child impossible => ?_⟩
    cases impossible

lemma jsonToQueryResultData_nodup (members : List (Text × Json)) :
    ∀ fields after, (fields.map fst).Nodup ->
      jsonToQueryResultData library members fields = .ok after -> (after.map fst).Nodup := by
  induction members with
  | nil =>
    intro fields after distinct looped
    cases looped
    exact distinct
  | cons member rest ih =>
    rcases member with ⟨key, json⟩
    intro fields after distinct looped
    rw [jsonToQueryResultData] at looped
    cases converted : jsonToQueryValue library json with
    | error failure =>
      rw [converted] at looped
      cases looped
    | ok value =>
      rw [converted] at looped
      exact ih _ after (nodup_setField key value distinct) looped

/-! ## Both ways -/

/-- A value without parts goes there and back if it does so itself. -/
lemma converts_leaf {json : Json} (value : QueryValue) (isLeaf : match value with
      | .subquery _ | .list _ => False
      | _ => True) (converted : jsonToQueryValue library json = .ok value)
    (back : Json.Equal (valueToJson library value) json) :
    ∃ value, jsonToQueryValue library json = .ok value ∧
      Everywhere QueryValue.parts DistinctKeys value ∧
      ∀ other, Equal other value -> Json.Equal (valueToJson library other) json := by
  refine ⟨value, converted, ?_, fun other equal => QueryValue.eq_of_equal isLeaf equal ▸ back⟩
  rw [everywhere_iff]
  cases value with
  | subquery fields => cases isLeaf
  | list values => cases isLeaf
  | _ => exact ⟨trivial, forall_mem_nil _⟩

lemma plain_member (isMember : member ∈ members) (each : ∀ child ∈ (Json.object members).parts,
      Everywhere Json.parts PlainJson child) : Everywhere Json.parts PlainJson member.2 :=
  each member.2 (mem_map_of_mem isMember)

lemma valueToJson_jsonToQueryValue : ∀ json, Everywhere Json.parts PlainJson json ->
    ∃ value, jsonToQueryValue library json = .ok value ∧
      Everywhere QueryValue.parts DistinctKeys value ∧
      ∀ other, Equal other value -> Json.Equal (valueToJson library other) json := by
  refine Json.induction_on_parts fun json ih plain => ?_
  rcases everywhere_iff.mp plain with ⟨here, each⟩
  cases json with
  | object members =>
    rcases here with ⟨distinct, untagged⟩
    have converts : ∀ member ∈ members, ∃ field : Text × QueryValue,
        (member.1 = field.1 ∧ jsonToQueryValue library member.2 = .ok field.2) ∧
        Everywhere QueryValue.parts DistinctKeys field.2 ∧
        ∀ other, Equal other field.2 -> Json.Equal (valueToJson library other) member.2 := by
      intro member isMember
      rcases ih member.2 (mem_map_of_mem isMember) (plain_member isMember each) with
        ⟨value, converted, distinct, back⟩
      exact ⟨(member.1, value), ⟨rfl, converted⟩, distinct, back⟩
    rcases exists_forall₂ members converts with ⟨fields, each⟩
    have converted := each.imp fun _ _ both => both.1
    rcases jsonToQueryResultData_filled library converted [] with ⟨after, looped, entered⟩
    have keys := forall₂_keys (fun json value => jsonToQueryValue library json = .ok value)
      converted
    refine ⟨.subquery after, ?_, ?_, ?_⟩
    · rw [jsonToQueryValue, jsonToIdentifierValue_untagged members untagged]
      dsimp only [bind, Except.bind]
      rw [looped]
    · rw [everywhere_iff]
      refine ⟨jsonToQueryResultData_nodup library members [] after nodup_nil looped, ?_⟩
      intro child isPart
      rcases mem_map.mp isPart with ⟨field, isField, same⟩
      subst same
      rcases entered.source field isField with isConverted | impossible
      · rcases forall₂_mem_right each isConverted with ⟨_, _, _, distinct, _⟩
        exact distinct
      · cases impossible
    · intro other equal
      cases other with
      | subquery fieldsA =>
        rcases QueryValue.equal_subquery.mp equal with ⟨sameKeys, sameValues⟩
        rw [valueToJson, Json.equal_object]
        apply (fieldsToJson_filled library fieldsA []).related
        · intro key
          have unchanged : (fieldsA.map fun field => (field.1, valueToJson library field.2)).map
              fst = fieldsA.map fst := by
            rw [map_map]
            rfl
          rw [unchanged, <- lookup_isSome_iff, sameKeys, entered.keys, <- keys]
          simp
        · intro entry member
          rcases mem_map.mp member with ⟨field, isField, same⟩
          subst same
          rcases sameValues field isField with ⟨value, looked, equal⟩
          rcases entered.source _ (mem_of_lookup looked) with isConverted | impossible
          · rcases forall₂_mem_right each isConverted with ⟨member, isMember, both⟩
            rcases both with ⟨⟨sameKey, _⟩, _, back⟩
            refine ⟨member.2, ?_, back _ equal⟩
            rw [<- sameKey]
            exact (lookup_eq_some_iff_mem distinct).mpr isMember
          · cases impossible
      | _ => cases equal
  | array elements =>
    have converts : ∀ element ∈ elements, ∃ value,
        jsonToQueryValue library element = .ok value ∧
        Everywhere QueryValue.parts DistinctKeys value ∧
        ∀ other, Equal other value -> Json.Equal (valueToJson library other) element :=
      fun element isElement => ih element isElement (each element isElement)
    rcases exists_forall₂ elements converts with ⟨values, each⟩
    refine ⟨.list values, ?_, ?_, ?_⟩
    · rw [jsonToQueryValue, jsonToQueryListValue_forall library (each.imp fun _ _ both => both.1)]
      rfl
    · rw [everywhere_iff]
      refine ⟨trivial, fun value isValue => ?_⟩
      rcases forall₂_mem_right each isValue with ⟨_, _, _, distinct, _⟩
      exact distinct
    · intro other equal
      cases other with
      | list others =>
        rw [valueToJson, listValueToJson_eq, Json.equal_array, forall₂_map_left_iff]
        exact forall₂_compose (fun _ _ _ equal both => both.2.2 _ equal)
          (QueryValue.equal_list.mp equal) each
      | _ => cases equal
  | discarded => cases here
  | null => exact converts_leaf library .null trivial rfl trivial
  | boolean value => exact converts_leaf library (.bool value) trivial rfl rfl
  | integer value => exact converts_leaf library (.int value) trivial rfl rfl
  | unsigned value =>
    have small : Int.bmod value (2 ^ 64) = value := by
      have bound : value < 2 ^ 63 := here
      apply Int.bmod_eq_of_le <;> omega
    refine converts_leaf library (.int value) trivial ?_ rfl
    rw [jsonToQueryValue, small]
  | float value => exact converts_leaf library (.double value) trivial rfl rfl
  | string value =>
    have undated : isRedfishDatetime value = false := here
    refine converts_leaf library (.string value) trivial ?_ rfl
    rw [jsonToQueryValue, timestampStrToTimestamp, undated]
    rfl

lemma jsonToQueryValue_valueToJson : ∀ value,
    Everywhere QueryValue.parts PlainValue value ->
    ∀ json, Json.Equal json (valueToJson library value) ->
      ∃ after, jsonToQueryValue library json = .ok after ∧ Equal after (writtenValue value) := by
  refine QueryValue.induction_on_parts fun value ih plain => ?_
  rcases everywhere_iff.mp plain with ⟨here, each⟩
  intro json equal
  cases value with
  | subquery fields =>
    rcases here with ⟨distinct, untagged⟩
    cases json with
    | object members =>
      rcases Json.equal_object.mp equal with ⟨sameKeys, sameValues⟩
      have written := fieldsToJson_filled library fields []
      have unchanged : (fields.map fun field => (field.1, valueToJson library field.2)).map
          fst = fields.map fst := by
        rw [map_map]
        rfl
      have keys : ∀ key, key ∈ members.map fst ↔ key ∈ fields.map fst := by
        intro key
        rw [<- lookup_isSome_iff, sameKeys, written.keys]
        simp
      have converts : ∀ member ∈ members, ∃ field : Text × QueryValue,
          (member.1 = field.1 ∧ jsonToQueryValue library member.2 = .ok field.2) ∧
          ∃ origin, (field.1, origin) ∈ fields ∧ Equal field.2 (writtenValue origin) := by
        intro member isMember
        rcases sameValues member isMember with ⟨found, looked, same⟩
        rcases written.source _ (mem_of_lookup looked) with entered | impossible
        · rcases mem_map.mp entered with ⟨field, isField, isFound⟩
          have sameKey : field.1 = member.1 := congrArg fst isFound
          have sameValue : valueToJson library field.2 = found := congrArg Prod.snd isFound
          rw [<- sameValue] at same
          have isPart : field.2 ∈ (QueryValue.subquery fields).parts := mem_map_of_mem isField
          rcases ih field.2 isPart (each field.2 isPart) member.2 same with
            ⟨after, converted, equal⟩
          exact ⟨(member.1, after), ⟨rfl, converted⟩, field.2, sameKey ▸ isField, equal⟩
        · cases impossible
      rcases exists_forall₂ members converts with ⟨converted, each⟩
      have one := each.imp fun _ _ both => both.1
      rcases jsonToQueryResultData_filled library one [] with ⟨after, looped, entered⟩
      have convertedKeys := forall₂_keys
        (fun json value => jsonToQueryValue library json = .ok value) one
      refine ⟨.subquery after, ?_, ?_⟩
      · rw [jsonToQueryValue, jsonToIdentifierValue_untagged members fun tag isTag inside =>
          untagged tag isTag ((keys tag).mp inside)]
        dsimp only [bind, Except.bind]
        rw [looped]
      · rw [writtenValue, writtenFields_eq, QueryValue.equal_subquery]
        apply entered.related
        · intro key
          rw [<- convertedKeys, keys, lookup_isSome_iff, map_map]
          exact .rfl
        · intro entry isEntry
          rcases forall₂_mem_right each isEntry with ⟨member, _, _, origin, isField, equal⟩
          refine ⟨writtenValue origin, ?_, equal⟩
          rw [lookup_eq_some_iff_mem]
          · exact mem_map.mpr ⟨(entry.1, origin), isField, rfl⟩
          · rw [map_map]
            exact distinct
    | _ => cases equal
  | list values =>
    rw [valueToJson, listValueToJson_eq] at equal
    cases json with
    | array elements =>
      have equals := forall₂_map_right_iff.mp (Json.equal_array.mp equal)
      rcases forall₂_between (fun value isValue json equal =>
          ih value isValue (each value isValue) json equal) equals with
        ⟨converted, converts, backs⟩
      refine ⟨.list converted, ?_, ?_⟩
      · rw [jsonToQueryValue, jsonToQueryListValue_forall library converts]
        rfl
      · rw [writtenValue, writtenValues_eq, QueryValue.equal_list, forall₂_map_right_iff]
        exact backs
    | _ => cases equal
  | identifier identifier =>
    cases json with
    | object members =>
      refine ⟨.identifier (writtenIdentifier identifier), ?_, rfl⟩
      rw [jsonToQueryValue, jsonToIdentifierValue_written here equal]
      rfl
    | _ => cases equal
  | int value =>
    rcases here with ⟨low, high⟩
    cases json with
    | integer other =>
      have same : other = value := equal
      exact ⟨.int other, rfl, congrArg QueryValue.int same⟩
    | unsigned other =>
      have same : (other : Int) = value := equal
      have small : Int.bmod other (2 ^ 64) = value := by
        rw [same]
        apply Int.bmod_eq_of_le <;> omega
      refine ⟨.int value, ?_, rfl⟩
      rw [jsonToQueryValue, small]
    | _ => cases equal
  | double value =>
    cases json with
    | float other =>
      have same : other = value := equal
      exact ⟨.double other, rfl, congrArg QueryValue.double same⟩
    | _ => cases equal
  | string value =>
    have undated : isRedfishDatetime value = false := here
    cases json with
    | string other =>
      have same : other = value := equal
      subst same
      refine ⟨.string other, ?_, rfl⟩
      rw [jsonToQueryValue, timestampStrToTimestamp, undated]
      rfl
    | _ => cases equal
  | bool value =>
    cases json with
    | boolean other =>
      have same : other = value := equal
      exact ⟨.bool other, rfl, congrArg QueryValue.bool same⟩
    | _ => cases equal
  | null =>
    cases json with
    | null => exact ⟨.null, rfl, rfl⟩
    | _ => cases equal
  | _ => cases here

end

/-- A JSON value with plain data is equal to what comes back, whatever the order of the fields in
between, and of a query value comes back what is written down of it. -/
theorem converter_round_trips :
    ∀ library : TimeLibrary,
      (∀ json, Everywhere Json.parts PlainJson json ->
        ∃ value, jsonToQueryValue library json = .ok value ∧
          Json.Equal (valueToJson library value) json ∧
          ∀ other, QueryValue.Equal other value -> Json.Equal (valueToJson library other) json) ∧
      ∀ value, Everywhere QueryValue.parts PlainValue value ->
        (∃ after, jsonToQueryValue library (valueToJson library value) = .ok after ∧
          QueryValue.Equal after (writtenValue value)) ∧
        (∀ json, Json.Equal json (valueToJson library value) ->
          ∃ after, jsonToQueryValue library json = .ok after ∧
            QueryValue.Equal after (writtenValue value)) ∧
        (Everywhere QueryValue.parts Unabridged value -> writtenValue value = value) := by
  intro library
  constructor
  · intro json plain
    rcases valueToJson_jsonToQueryValue library json plain with ⟨value, converted, distinct, back⟩
    exact ⟨value, converted, back value (QueryValue.equal_refl value distinct), back⟩
  · intro value plain
    have back := jsonToQueryValue_valueToJson library value plain
    exact ⟨back _ (Json.equal_refl _ (valueToJson_distinct library value plain)), back,
      writtenValue_unabridged value⟩

def timelessLibrary : TimeLibrary where
  parseTime _ _ := none
  formatTime _ := []

/-- A number in an array comes back. -/
theorem converter_round_trips_number :
    ∃ value, jsonToQueryValue timelessLibrary (.object [(text "Slots", .array [.integer 2])]) =
      .ok value ∧
      Json.Equal (valueToJson timelessLibrary value)
        (.object [(text "Slots", .array [.integer 2])]) := by
  have plain : Everywhere Json.parts PlainJson (.object [(text "Slots", .array [.integer 2])]) := by
    rw [everywhere_iff]
    refine ⟨⟨List.nodup_singleton _, by decide⟩, fun child isPart => ?_⟩
    rw [List.mem_singleton.mp isPart, everywhere_iff]
    refine ⟨trivial, fun child isPart => ?_⟩
    rw [List.mem_singleton.mp isPart, everywhere_iff]
    refine ⟨⟨by decide, by decide⟩, fun child impossible => ?_⟩
    cases impossible
  rcases (converter_round_trips timelessLibrary).1 _ plain with ⟨value, converted, back, _⟩
  exact ⟨value, converted, back⟩

/-- The identifier of a root chassis in the slot "A". -/
def slotIdentifier : Identifier :=
  ⟨some (text "/phys"), none, none, some ⟨text "A", none⟩, some true⟩

/-- The location and the flag of a root do not come back. -/
theorem converter_drops_location :
    jsonToQueryValue timelessLibrary (valueToJson timelessLibrary (.identifier slotIdentifier)) =
        .ok (.identifier ⟨some (text "/phys"), none, none, none, none⟩) ∧
      slotIdentifier ≠ ⟨some (text "/phys"), none, none, none, none⟩ := by
  exact ⟨rfl, by decide⟩

end Query
end Ecclesia
