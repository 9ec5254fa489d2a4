import Ecclesia.Validator.Check

namespace Ecclesia.Validator

open Normalizer List
open Prod (fst)
open Planner (kIdentifierTag)

/-!
# Results of the default normaliser

A query result is a tree of data sets.  Here every data set is made by the default
normaliser from a resource, and holds the data sets of the subqueries below it under
their ids.  The validator accepts such a result just if every field finds what it needs
at its path in the table of the configured properties.  Most fields find the property
they were made for.  Identifiers, annotations, null values and time stamps do not.
-/

variable {World Object Iterable : Type}

/-! ## Trees of data sets -/

/-- What a field holds: one item, or a list of items. -/
inductive Held (Item : Type) where
  | single (item : Item)
  | list (items : List Item)

namespace Held

variable {Item : Type}

def items : Held Item -> List Item
  | .single item => [item]
  | .list items => items

end Held

/-- A data set: its subquery, its resource, the state of the service then, and the data sets below.
-/
inductive DataSet (World Object : Type) where
  | mk (subquery : Subquery) (object : Object) (world : World)
      (children : List (Text × Held (DataSet World Object)))

/-- The data sets under their subquery ids. -/
abbrev Entries (World Object : Type) := List (Text × Held (DataSet World Object))

namespace DataSet

variable {World Object : Type}

def subquery : DataSet World Object -> Subquery
  | .mk subquery _ _ _ => subquery

def object : DataSet World Object -> Object
  | .mk _ object _ _ => object

def world : DataSet World Object -> World
  | .mk _ _ world _ => world

def children : DataSet World Object -> Entries World Object
  | .mk _ _ _ children => children

end DataSet

def storeAll (entries fields : QueryResultData) : QueryResultData :=
  entries.foldl (fun fields entry => setField entry.1 entry.2 fields) fields

section

variable (library : ValueLibrary)
  (views : RedfishViews World Object Iterable) (urlAnnotationEnabled : Bool)

/-- The fields that the normaliser makes for a resource. -/
def ownFields (subquery : Subquery) (object : Object) (world : World) : QueryResultData :=
  match (normalize library views object subquery [] urlAnnotationEnabled world).1 with
  | .ok fields => fields
  | .error _ => []

mutual

def fieldsOf : DataSet World Object -> QueryResultData
  | .mk subquery object world children =>
    storeAll (entriesOf children) (ownFields library views urlAnnotationEnabled subquery object
      world)

def entriesOf : Entries World Object -> QueryResultData
  | [] => []
  | (id, held) :: rest => (id, heldValue held) :: entriesOf rest

def heldValue : Held (DataSet World Object) -> QueryValue
  | .single item => .subquery (fieldsOf item)
  | .list items => .list (elementsOf items)

def elementsOf : List (DataSet World Object) -> List QueryValue
  | [] => []
  | item :: rest => .subquery (fieldsOf item) :: elementsOf rest

end

/-- A data set occurs in a tree, at a path. -/
inductive Occurs : Text -> Entries World Object -> Text -> DataSet World Object -> Prop where
  | here {path id : Text} {entries : Entries World Object} {held : Held (DataSet World Object)}
      {dataSet : DataSet World Object} (listed : (id, held) ∈ entries)
      (member : dataSet ∈ held.items) : Occurs path entries (path ++ text "/" ++ id) dataSet
  | deeper {path id place : Text} {entries : Entries World Object}
      {held : Held (DataSet World Object)} {parent dataSet : DataSet World Object}
      (listed : (id, held) ∈ entries) (member : parent ∈ held.items)
      (occurs : Occurs (path ++ text "/" ++ id) parent.children place dataSet) :
      Occurs path entries place dataSet

/-- Data sets of subqueries that are rooted in the given one, or in none. -/
structure Hangs (query : DelliciusQuery) (parent : Option Text) (entries : Entries World Object) :
    Prop where
  distinct : (entries.map Prod.fst).Nodup
  nonempty : ∀ entry ∈ entries, entry.2.items ≠ []
  rooted : ∀ entry ∈ entries, ∀ dataSet ∈ entry.2.items,
    dataSet.subquery ∈ query.subquery ∧ dataSet.subquery.subqueryId = entry.1 ∧
      match parent with
      | none => dataSet.subquery.rootSubqueryIds = []
      | some id => id ∈ dataSet.subquery.rootSubqueryIds

/-- The data of a result for a query, made by the default normaliser. -/
structure Produced (query : DelliciusQuery) (entries : Entries World Object) : Prop where
  top : Hangs query none entries
  below : ∀ path dataSet, Occurs [] entries path dataSet ->
    Hangs query (some dataSet.subquery.subqueryId) dataSet.children
  normalized : ∀ path dataSet, Occurs [] entries path dataSet ->
    ∃ fields, (normalize library views dataSet.object dataSet.subquery []
      urlAnnotationEnabled dataSet.world).1 = .ok fields

/-! ## What the fields need -/

/-- The value of a property is accepted as the value of a configured property. -/
structure Matches (property : RedfishProperty) (nullNode : Bool) (config : RedfishProperty) :
    Prop where
  type : property.type = config.type
  notTimestamp : property.type ≠ .dateTimeOffset
  form : property.propertyElementType = .collectionPrimitive ↔
    config.propertyElementType = .collectionPrimitive
  notNull : property.propertyElementType = .collectionPrimitive ∨ nullNode = false

/-- The value of a property is accepted at a path with the given configuration. -/
def Fits (property : RedfishProperty) (nullNode : Bool) : Option RedfishProperty -> Prop
  | some config => Matches property nullNode config
  | none => property.propertyElementType = .collectionPrimitive

/-- Every field of a data set that is not replaced by another one finds what it needs at
its path. -/
structure Suits (table : List (Text × RedfishProperty)) (path : Text)
    (dataSet : DataSet World Object) : Prop where
  properties : ∀ key property,
    provider library (views.getContentAsJson dataSet.object) dataSet.subquery.properties key =
      some property ->
    key ∉ dataSet.children.map Prod.fst ->
    (key = kUriAnnotationTag ->
      isAnnotated (views.getContentAsJson dataSet.object) urlAnnotationEnabled = false) ->
    (key = kIdentifierTag -> isIdentified library (views.getContentAsJson dataSet.object)
      (resourceTypeOf views dataSet.object dataSet.world) = false) ->
    Fits property (isNullNode (views.getContentAsJson dataSet.object) property)
      (table.lookup (path ++ text "/" ++ key))
  identifier : isIdentified library (views.getContentAsJson dataSet.object)
      (resourceTypeOf views dataSet.object dataSet.world) = true ->
    kIdentifierTag ∉ dataSet.children.map Prod.fst ->
    ∃ config, table.lookup (path ++ text "/" ++ kIdentifierTag) = some config ∧
      config.propertyElementType ≠ .collectionPrimitive
  uri : isAnnotated (views.getContentAsJson dataSet.object) urlAnnotationEnabled = true ->
    kUriAnnotationTag ∉ dataSet.children.map Prod.fst ->
    ∃ config, table.lookup (path ++ text "/" ++ kUriAnnotationTag) = some config ∧
      config.propertyElementType ≠ .collectionPrimitive ∧ config.type = .string
  children : ∀ id ∈ dataSet.children.map Prod.fst, table.lookup (path ++ text "/" ++ id) = none

/-- No id of a subquery is spelled like a configured property, and every data set suits
the table. -/
structure Acceptable (table : List (Text × RedfishProperty)) (entries : Entries World Object) :
    Prop where
  top : ∀ id ∈ entries.map Prod.fst, table.lookup (text "/" ++ id) = none
  suits : ∀ path dataSet, Occurs [] entries path dataSet ->
    Suits library views urlAnnotationEnabled table path dataSet

end

/-! ## One field -/

variable {config : RedfishProperty}

section

variable {table : List (Text × RedfishProperty)}

variable {path : Text} {value : QueryValue}

lemma checkElement_of_hasType {own type : PrimitiveType} (typed : hasType own value = true) :
    checkElement path type value = .ok () ↔ own = type ∧ own ≠ .dateTimeOffset := by
  rw [checkElement, isUnset_of_hasType typed]
  exact compareTypes_of_hasType typed

variable {property : RedfishProperty} {nullNode : Bool}

lemma isUnset_of_kind (kind : KindOf property nullNode value) : isUnset value = false := by
  cases kind with
  | collection isCollection nonempty typed => rfl
  | null single isNull => rfl
  | primitive single notNull typed => exact isUnset_of_hasType typed

lemma checkProperty_of_kind (kind : KindOf property nullNode value) :
    checkProperty path value config = .ok () ↔ Matches property nullNode config := by
  unfold checkProperty
  rw [isUnset_of_kind kind, if_neg Bool.false_ne_true]
  by_cases configured : config.propertyElementType = .collectionPrimitive
  · rw [if_pos configured]
    cases kind with
    | collection isCollection nonempty typed =>
      rw [forM_eq_ok]
      constructor
      · intro accepted
        rcases exists_mem_of_ne_nil _ nonempty with ⟨value, member⟩
        rcases (checkElement_of_hasType (typed value member)).mp (accepted value member) with
          ⟨same, notTimestamp⟩
        exact ⟨same, notTimestamp, iff_of_true isCollection configured, .inl isCollection⟩
      · intro fits value member
        exact (checkElement_of_hasType (typed value member)).mpr ⟨fits.type, fits.notTimestamp⟩
    | null single isNull =>
      exact ⟨nofun, fun fits => absurd (fits.form.mpr configured) single⟩
    | primitive single notNull typed =>
      constructor
      · intro accepted
        cases value with
        | list values =>
          cases type : property.type <;> rw [type] at typed <;> cases typed
        | _ => cases accepted
      · exact fun fits => absurd (fits.form.mpr configured) single
  · rw [if_neg configured]
    cases kind with
    | collection isCollection nonempty typed =>
      exact ⟨nofun, fun fits => absurd (fits.form.mp isCollection) configured⟩
    | null single isNull =>
      constructor
      · exact nofun
      · intro fits
        rcases fits.notNull with isCollection | notNull
        · exact absurd isCollection single
        · rw [isNull] at notNull
          cases notNull
    | primitive single notNull typed =>
      rw [compareTypes_of_hasType typed]
      constructor
      · rintro ⟨same, notTimestamp⟩
        exact ⟨same, notTimestamp, iff_of_false single configured, .inr notNull⟩
      · exact fun fits => ⟨fits.type, fits.notTimestamp⟩

lemma traverseElements_of_hasType {type : PrimitiveType} {values : List QueryValue}
    (typed : ∀ value ∈ values, hasType type value = true) :
    traverseElements table path values = .ok () := by
  induction values with
  | nil => rfl
  | cons value rest ih =>
    have later := ih fun other member => typed other (.tail _ member)
    have first := typed value (.head _)
    cases value with
    | subquery fields => cases type <;> cases first
    | _ => exact later

lemma traverseField_of_kind (kind : KindOf property nullNode value) :
    traverseField table path value = .ok () ↔ Fits property nullNode (table.lookup path) := by
  unfold traverseField
  cases found : table.lookup path with
  | some config => exact checkProperty_of_kind kind
  | none =>
    cases kind with
    | collection isCollection nonempty typed =>
      exact iff_of_true (traverseElements_of_hasType typed) isCollection
    | null single isNull => exact ⟨nofun, fun isCollection => absurd isCollection single⟩
    | primitive single notNull typed =>
      constructor
      · intro accepted
        cases value with
        | list values => cases type : property.type <;> rw [type] at typed <;> cases typed
        | subquery fields => cases type : property.type <;> rw [type] at typed <;> cases typed
        | _ => cases accepted
      · exact fun isCollection => absurd isCollection single

lemma traverseField_identifier {identifier : Identifier} :
    traverseField table path (.identifier identifier) = .ok () ↔
      ∃ config, table.lookup path = some config ∧
        config.propertyElementType ≠ .collectionPrimitive := by
  unfold traverseField
  cases found : table.lookup path with
  | none => exact ⟨nofun, nofun⟩
  | some config =>
    simp only [checkProperty, isUnset]
    by_cases configured : config.propertyElementType = .collectionPrimitive
    · simp [configured]
    · simp [configured, compareTypes]

lemma traverseField_string {value : Text} :
    traverseField table path (.string value) = .ok () ↔
      ∃ config, table.lookup path = some config ∧
        config.propertyElementType ≠ .collectionPrimitive ∧ config.type = .string := by
  unfold traverseField
  cases found : table.lookup path with
  | none => exact ⟨nofun, nofun⟩
  | some config =>
    simp only [checkProperty, isUnset]
    by_cases configured : config.propertyElementType = .collectionPrimitive
    · simp [configured]
    · simp [configured, compareTypes]

end

/-! ## One data set -/

lemma lookup_storeAll {entries : QueryResultData} (distinct : (entries.map fst).Nodup)
    (fields : QueryResultData) (key : Text) :
    (storeAll entries fields).lookup key = (entries.lookup key).or (fields.lookup key) := by
  induction entries generalizing fields with
  | nil => rfl
  | cons entry rest ih =>
    rcases entry with ⟨name, value⟩
    rcases nodup_cons.mp distinct with ⟨absent, distinctRest⟩
    change (storeAll rest (setField name value fields)).lookup key = _
    rw [ih distinctRest, lookup_setField, lookup_cons]
    by_cases same : key = name
    · subst same
      have missing : rest.lookup key = none := by
        rw [<- Option.not_isSome_iff_eq_none, lookup_isSome_iff]
        exact absent
      simp [missing]
    · simp [same, beq_false_of_ne same]

variable {fields : QueryResultData}

lemma nodup_storeAll (entries : QueryResultData)
    (distinct : (fields.map fst).Nodup) : ((storeAll entries fields).map fst).Nodup := by
  induction entries generalizing fields with
  | nil => exact distinct
  | cons entry rest ih => exact ih (nodup_setField entry.1 entry.2 distinct)

section

variable {library : ValueLibrary}
  {views : RedfishViews World Object Iterable} {urlAnnotationEnabled : Bool}
  {table : List (Text × RedfishProperty)}

lemma entriesOf_eq_map (entries : Entries World Object) :
    entriesOf library views urlAnnotationEnabled entries =
      entries.map fun entry => (entry.1, heldValue library views urlAnnotationEnabled entry.2) := by
  induction entries with
  | nil => simp [entriesOf]
  | cons entry rest ih => rw [entriesOf, ih, map_cons]

lemma elementsOf_eq_map (items : List (DataSet World Object)) :
    elementsOf library views urlAnnotationEnabled items =
      (items.map (fieldsOf library views urlAnnotationEnabled)).map .subquery := by
  induction items with
  | nil => simp [elementsOf]
  | cons item rest ih => rw [elementsOf, ih, map_cons, map_cons]

lemma keys_entriesOf (entries : Entries World Object) :
    (entriesOf library views urlAnnotationEnabled entries).map fst = entries.map fst := by
  rw [entriesOf_eq_map, map_map]
  rfl

variable {path : Text}

lemma traverseField_subquery_configured (found : table.lookup path = some config) :
    traverseField table path (.subquery fields) ≠ .ok () := by
  unfold traverseField
  rw [found]
  simp only [checkProperty, isUnset]
  by_cases configured : config.propertyElementType = .collectionPrimitive
  · simp [configured]
  · simp [configured, compareTypes]

lemma traverseField_list_configured {values : List QueryValue} (found : table.lookup path = some config) :
    traverseField table path (.list (.subquery fields :: values)) ≠ .ok () := by
  unfold traverseField
  rw [found]
  simp only [checkProperty, isUnset]
  by_cases configured : config.propertyElementType = .collectionPrimitive
  · rw [if_pos configured]
    intro accepted
    have first := forM_eq_ok.mp accepted (.subquery fields) (.head _)
    simp [checkElement, isUnset, compareTypes] at first
  · simp [configured, compareTypes]

/-- Data sets are accepted under an id just if no property is configured there and each
of them is accepted. -/
lemma traverseField_held {held : Held (DataSet World Object)} (nonempty : held.items ≠ []) :
    traverseField table path (heldValue library views urlAnnotationEnabled held) = .ok () ↔
      table.lookup path = none ∧ ∀ dataSet ∈ held.items,
        traverseQueryResult table path (fieldsOf library views urlAnnotationEnabled dataSet) =
          .ok () := by
  cases found : table.lookup path with
  | some config =>
    apply iff_of_false _ (by simp)
    cases held with
    | single item =>
      exact traverseField_subquery_configured found
    | list items =>
      cases items with
      | nil => exact absurd rfl nonempty
      | cons item rest =>
        exact traverseField_list_configured found
  | none =>
    cases held with
    | single item =>
      rw [heldValue, traverseField, found]
      simp [Held.items]
    | list items =>
      rw [heldValue, traverseField, found, elementsOf_eq_map]
      simp only [traverseElements_eq_ok, forall_mem_map, Held.items, true_and]

variable {dataSet : DataSet World Object}

lemma ownFields_accepted
    (emitted : Emitted library views dataSet.object dataSet.world dataSet.subquery
      urlAnnotationEnabled (ownFields library views urlAnnotationEnabled dataSet.subquery
        dataSet.object dataSet.world)) (unconfigured : ∀ id ∈ dataSet.children.map fst,
      table.lookup (path ++ text "/" ++ id) = none) :
    (∀ key value, key ∉ dataSet.children.map fst ->
        (ownFields library views urlAnnotationEnabled dataSet.subquery dataSet.object
          dataSet.world).lookup key = some value ->
        traverseField table (path ++ text "/" ++ key) value = .ok ()) ↔
      Suits library views urlAnnotationEnabled table path dataSet := by
  constructor
  · intro accepted
    refine ⟨?_, ?_, ?_, unconfigured⟩
    · intro key property provided notChild notUri notIdentifier
      rcases provider_yields library _ provided with ⟨value, got⟩
      have kind := getPropertyFromRedfishObject_kind library got
      apply (traverseField_of_kind kind).mp
      apply accepted key value notChild
      rw [emitted.properties key notUri notIdentifier, providedValue, provided, Option.bind_some,
        got]
      rfl
    · intro identified notChild
      rcases emitted.identifier identified with ⟨identifier, held⟩
      exact traverseField_identifier.mp (accepted _ _ notChild held)
    · intro annotated notChild
      rcases emitted.uri annotated with ⟨uri, held⟩
      exact traverseField_string.mp (accepted _ _ notChild held)
  · intro suits key value notChild held
    by_cases isUri : key = kUriAnnotationTag ∧
        isAnnotated (views.getContentAsJson dataSet.object) urlAnnotationEnabled = true
    · rcases isUri with ⟨rfl, annotated⟩
      rcases emitted.uri annotated with ⟨uri, stored⟩
      rw [stored] at held
      cases held
      exact traverseField_string.mpr (suits.uri annotated notChild)
    · have notUri : key = kUriAnnotationTag ->
          isAnnotated (views.getContentAsJson dataSet.object) urlAnnotationEnabled = false :=
        fun same => Bool.eq_false_iff.mpr fun annotated => isUri ⟨same, annotated⟩
      by_cases isId : key = kIdentifierTag ∧ isIdentified library
          (views.getContentAsJson dataSet.object)
          (resourceTypeOf views dataSet.object dataSet.world) = true
      · rcases isId with ⟨rfl, identified⟩
        rcases emitted.identifier identified with ⟨identifier, stored⟩
        rw [stored] at held
        cases held
        exact traverseField_identifier.mpr (suits.identifier identified notChild)
      · have notIdentifier : key = kIdentifierTag -> isIdentified library
            (views.getContentAsJson dataSet.object)
            (resourceTypeOf views dataSet.object dataSet.world) = false :=
          fun same => Bool.eq_false_iff.mpr fun identified => isId ⟨same, identified⟩
        rw [emitted.properties key notUri notIdentifier] at held
        rcases providedValue_kind library held with ⟨property, provided, kind⟩
        exact (traverseField_of_kind kind).mpr
          (suits.properties key property provided notChild notUri notIdentifier)

variable {query : DelliciusQuery}

lemma traverseQueryResult_dataSet
    (hangs : Hangs query (some dataSet.subquery.subqueryId) dataSet.children)
    (normalized : ∃ fields, (normalize library views dataSet.object dataSet.subquery []
      urlAnnotationEnabled dataSet.world).1 = .ok fields) :
    traverseQueryResult table path (fieldsOf library views urlAnnotationEnabled dataSet) = .ok () ↔
      Suits library views urlAnnotationEnabled table path dataSet ∧
        ∀ entry ∈ dataSet.children, ∀ child ∈ entry.2.items,
          traverseQueryResult table (path ++ text "/" ++ entry.1)
            (fieldsOf library views urlAnnotationEnabled child) = .ok () := by
  rcases dataSet with ⟨subquery, object, world, children⟩
  have emitted : Emitted library views object world subquery urlAnnotationEnabled
      (ownFields library views urlAnnotationEnabled subquery object world) := by
    rcases normalized with ⟨fields, made⟩
    have same : ownFields library views urlAnnotationEnabled subquery object world = fields := by
      unfold ownFields
      simp only [DataSet.subquery, DataSet.object, DataSet.world] at made
      rw [made]
    rw [same]
    exact normalize_emits library views made
  have distinctEntries : ((entriesOf library views urlAnnotationEnabled children).map
      fst).Nodup := by
    rw [keys_entriesOf]
    exact hangs.distinct
  have reads := lookup_storeAll distinctEntries
    (ownFields library views urlAnnotationEnabled subquery object world)
  have heldAt : ∀ entry ∈ children,
      (entriesOf library views urlAnnotationEnabled children).lookup entry.1 =
        some (heldValue library views urlAnnotationEnabled entry.2) := by
    intro entry member
    apply (lookup_eq_some_iff_mem distinctEntries).mpr
    rw [entriesOf_eq_map]
    exact mem_map_of_mem member
  have elsewhere : ∀ key, key ∉ children.map fst ->
      (entriesOf library views urlAnnotationEnabled children).lookup key = none := by
    intro key absent
    rw [<- Option.not_isSome_iff_eq_none, lookup_isSome_iff, keys_entriesOf]
    exact absent
  rw [traverseQueryResult_eq_ok]
  constructor
  · intro accepted
    have byKey : ∀ key value, (storeAll (entriesOf library views urlAnnotationEnabled children)
        (ownFields library views urlAnnotationEnabled subquery object world)).lookup key =
          some value -> traverseField table (path ++ text "/" ++ key) value = .ok () := by
      intro key value found
      exact accepted (key, value)
        ((lookup_eq_some_iff_mem (nodup_storeAll _ emitted.distinct)).mp found)
    have childrenAccepted : ∀ entry ∈ children,
        table.lookup (path ++ text "/" ++ entry.1) = none ∧
          ∀ child ∈ entry.2.items, traverseQueryResult table
            (path ++ text "/" ++ entry.1) (fieldsOf library views urlAnnotationEnabled child) =
              .ok () := by
      intro entry member
      apply (traverseField_held (hangs.nonempty entry member)).mp
      apply byKey
      rw [reads, heldAt entry member, Option.some_or]
    refine ⟨?_, fun entry member => (childrenAccepted entry member).2⟩
    apply (ownFields_accepted emitted _).mp
    · intro key value notChild found
      apply byKey
      rw [reads, elsewhere key notChild]
      exact found
    · intro id member
      rcases mem_map.mp member with ⟨entry, listed, rfl⟩
      exact (childrenAccepted entry listed).1
  · rintro ⟨suits, below⟩ ⟨key, value⟩ member
    have found := (lookup_eq_some_iff_mem (nodup_storeAll _ emitted.distinct)).mpr member
    rw [reads] at found
    by_cases isChild : key ∈ children.map fst
    · rcases mem_map.mp isChild with ⟨entry, listed, rfl⟩
      rw [heldAt entry listed] at found
      cases found
      exact (traverseField_held (hangs.nonempty entry listed)).mpr
        ⟨suits.children entry.1 isChild, below entry listed⟩
    · rw [elsewhere key isChild] at found
      exact (ownFields_accepted emitted suits.children).mpr suits key value isChild found

/-! ## Whole results -/

variable {entries : Entries World Object}

lemma sizeOf_children_lt {entry : Text × Held (DataSet World Object)} (listed : entry ∈ entries)
    (member : dataSet ∈ entry.2.items) : sizeOf dataSet.children < sizeOf entries := by
  have inEntries := sizeOf_lt_of_mem listed
  rcases entry with ⟨id, held⟩
  have inHeld : sizeOf dataSet < sizeOf held := by
    cases held with
    | single item =>
      rw [mem_singleton.mp member]
      simp
    | list items =>
      have inItems := sizeOf_lt_of_mem member
      simp only [Held.items] at inItems
      simp only [Held.list.sizeOf_spec]
      omega
  have inDataSet : sizeOf dataSet.children < sizeOf dataSet := by
    rcases dataSet with ⟨subquery, object, world, children⟩
    simp only [DataSet.children, DataSet.mk.sizeOf_spec]
    omega
  simp only [Prod.mk.sizeOf_spec] at inEntries
  omega

lemma accepted_of_suits (path : Text) (entries : Entries World Object)
    (hangs : ∀ place dataSet, Occurs path entries place dataSet ->
      Hangs query (some dataSet.subquery.subqueryId) dataSet.children)
    (normalized : ∀ place dataSet, Occurs path entries place dataSet ->
      ∃ fields, (normalize library views dataSet.object dataSet.subquery []
        urlAnnotationEnabled dataSet.world).1 = .ok fields)
    (suits : ∀ place dataSet, Occurs path entries place dataSet ->
      Suits library views urlAnnotationEnabled table place dataSet)
    (entry : Text × Held (DataSet World Object)) (listed : entry ∈ entries)
    (dataSet : DataSet World Object) (member : dataSet ∈ entry.2.items) :
    traverseQueryResult table (path ++ text "/" ++ entry.1)
      (fieldsOf library views urlAnnotationEnabled dataSet) = .ok () := by
  have here : Occurs path entries (path ++ text "/" ++ entry.1) dataSet := .here listed member
  apply (traverseQueryResult_dataSet (hangs _ _ here) (normalized _ _ here)).mpr
  refine ⟨suits _ _ here, ?_⟩
  intro below listedBelow child memberBelow
  exact accepted_of_suits (path ++ text "/" ++ entry.1) dataSet.children
    (fun place deeper occurs => hangs place deeper (.deeper listed member occurs))
    (fun place deeper occurs => normalized place deeper (.deeper listed member occurs))
    (fun place deeper occurs => suits place deeper (.deeper listed member occurs))
    below listedBelow child memberBelow
termination_by sizeOf entries
decreasing_by exact sizeOf_children_lt listed member

lemma suits_of_accepted {place : Text} (occurs : Occurs path entries place dataSet)
    (hangs : ∀ place dataSet, Occurs path entries place dataSet ->
      Hangs query (some dataSet.subquery.subqueryId) dataSet.children)
    (normalized : ∀ place dataSet, Occurs path entries place dataSet ->
      ∃ fields, (normalize library views dataSet.object dataSet.subquery []
        urlAnnotationEnabled dataSet.world).1 = .ok fields)
    (accepted : ∀ entry ∈ entries, ∀ dataSet ∈ entry.2.items,
      traverseQueryResult table (path ++ text "/" ++ entry.1)
        (fieldsOf library views urlAnnotationEnabled dataSet) = .ok ()) :
    Suits library views urlAnnotationEnabled table place dataSet := by
  induction occurs with
  | here listed member =>
    exact ((traverseQueryResult_dataSet (hangs _ _ (.here listed member))
      (normalized _ _ (.here listed member))).mp (accepted _ listed _ member)).1
  | deeper listed member occurs ih =>
    apply ih
    · exact fun place deeper occurs => hangs place deeper (.deeper listed member occurs)
    · exact fun place deeper occurs => normalized place deeper (.deeper listed member occurs)
    · exact ((traverseQueryResult_dataSet (hangs _ _ (.here listed member))
        (normalized _ _ (.here listed member))).mp (accepted _ listed _ member)).2

/-- A result of the default normaliser is accepted just if no subquery id is spelled like a
configured property, every identifier and every annotation is configured, and every property finds a
property of its own type, is no time stamp and not null. -/
theorem validateQueryResult_accepts_iff {order : IterationOrder Text} {bound : Nat}
    {query : DelliciusQuery}
    (created : ExceptT.run (create order bound (some query)) = some (.ok table))
    {entries : Entries World Object}
    (produced : Produced library views urlAnnotationEnabled query entries) {result : QueryResult}
    (sameId : result.queryId = query.queryId)
    (data : result.data = entriesOf library views urlAnnotationEnabled entries) :
    ExceptT.run (validateQueryResult order bound query result) = some (.ok ()) ↔
      Acceptable library views urlAnnotationEnabled table entries := by
  have named : query.queryId ≠ [] := by
    intro unnamed
    rw [create, if_pos (List.isEmpty_iff.mpr unnamed)] at created
    cases created
  have validated : ExceptT.run (validateQueryResult order bound query result) =
      some (traverseQueryResult table [] (entriesOf library views urlAnnotationEnabled entries)) := by
    unfold validateQueryResult
    rw [ExceptT.run_bind, created]
    change some (validate table query result) = _
    have notEmpty : result.queryId.isEmpty = false := by
      rw [sameId]
      exact Bool.eq_false_iff.mpr fun empty => named (List.isEmpty_iff.mp empty)
    rw [validate, notEmpty, Bool.false_and, Bool.false_and, Bool.false_and,
      if_neg Bool.false_ne_true, if_neg (not_not_intro sameId), data]
  have perEntry : traverseQueryResult table [] (entriesOf library views urlAnnotationEnabled
      entries) = .ok () ↔ ∀ entry ∈ entries,
        table.lookup (text "/" ++ entry.1) = none ∧ ∀ dataSet ∈ entry.2.items,
          traverseQueryResult table ([] ++ text "/" ++ entry.1)
            (fieldsOf library views urlAnnotationEnabled dataSet) = .ok () := by
    rw [traverseQueryResult_eq_ok, entriesOf_eq_map, List.forall_mem_map]
    apply forall_congr'
    intro entry
    apply imp_congr_right
    intro member
    exact traverseField_held (produced.top.nonempty entry member)
  rw [validated, Option.some_inj, perEntry]
  constructor
  · intro accepted
    refine ⟨?_, ?_⟩
    · intro id member
      rcases List.mem_map.mp member with ⟨entry, listed, rfl⟩
      exact (accepted entry listed).1
    · intro path dataSet occurs
      exact suits_of_accepted occurs produced.below produced.normalized
        fun entry listed => (accepted entry listed).2
  · intro acceptable entry listed
    refine ⟨acceptable.top entry.1 (List.mem_map_of_mem listed), ?_⟩
    exact accepted_of_suits [] entries produced.below produced.normalized acceptable.suits entry
      listed

end

/-! ## A chassis -/

/-- A library that knows no time stamps, for payloads without numbers. -/
def textLibrary : ValueLibrary := ⟨fun _ => none, fun value => value, fun value => value.num, fun _ => []⟩

/-- A service with one resource. -/
def resourceViews (content : Json) : RedfishViews Unit Unit Unit where
  get _ name _ := return match content.find name with
    | some (.string value) => .ofString value
    | _ => .ofStatus (.notFound (text "no such property"))
  ensureFreshPayload object _ := return .ok (some object)
  getContentAsJson _ := content
  size _ := 0
  index _ _ := return .ofStatus (.notFound (text "no such member"))

def chassisSubquery : Subquery :=
  ⟨text "chassis", [], [⟨text "Name", [], [], .string, .primitive, false⟩], [], none,
    .redpath (text "/Chassis[*]"), .unspecified, none⟩

def chassisQuery : DelliciusQuery := ⟨text "query", [chassisSubquery], none⟩

def chassisTable : List (Text × RedfishProperty) :=
  [(text "/chassis/Name", ⟨text "Name", [], [], .string, .primitive, false⟩)]

/-- The data sets of one chassis. -/
def chassisEntries : Entries Unit Unit := [(text "chassis", .list [.mk chassisSubquery () () []])]

lemma occurs_chassisEntries {path : Text} {dataSet : DataSet Unit Unit}
    (occurs : Occurs [] chassisEntries path dataSet) :
    path = text "/chassis" ∧ dataSet = .mk chassisSubquery () () [] := by
  cases occurs with
  | here listed member =>
    cases mem_singleton.mp listed
    cases mem_singleton.mp member
    exact ⟨rfl, rfl⟩
  | deeper listed member occurs =>
    cases mem_singleton.mp listed
    cases mem_singleton.mp member
    cases occurs with
    | here listed member => cases listed
    | deeper listed member occurs => cases listed

lemma chassisEntries_produced {content : Json}
    (normalized : (normalize textLibrary (resourceViews content) () chassisSubquery [] false
      ()).1 = .ok fields) :
    Produced textLibrary (resourceViews content) false chassisQuery chassisEntries := by
  refine ⟨⟨by decide, ?_, ?_⟩, ?_, ?_⟩
  · intro entry member
    cases mem_singleton.mp member
    exact cons_ne_nil _ _
  · intro entry member dataSet inside
    cases mem_singleton.mp member
    cases mem_singleton.mp inside
    exact ⟨mem_singleton.mpr rfl, rfl, rfl⟩
  · intro path dataSet occurs
    rcases occurs_chassisEntries occurs with ⟨rfl, rfl⟩
    refine ⟨nodup_nil, ?_, ?_⟩
    · exact forall_mem_nil _
    · exact forall_mem_nil _
  · intro path dataSet occurs
    rcases occurs_chassisEntries occurs with ⟨rfl, rfl⟩
    exact ⟨fields, normalized⟩

lemma chassisEntries_produced_of_isOk {content : Json}
    (normalizes : (normalize textLibrary (resourceViews content) () chassisSubquery [] false
      ()).1.isOk = true) :
    Produced textLibrary (resourceViews content) false chassisQuery chassisEntries := by
  cases normalized : (normalize textLibrary (resourceViews content) () chassisSubquery [] false
      ()).1 with
  | ok fields => exact chassisEntries_produced normalized
  | error failure =>
    rw [normalized] at normalizes
    cases normalizes

lemma create_chassisQuery :
    ExceptT.run (create (.listed Text) 4 (some chassisQuery)) = some (.ok chassisTable) := rfl

/-- A payload with a name only. -/
def namedContent : Json := .object [(text "Name", .string (text "c"))]

theorem validateQueryResult_accepts_name :
    ExceptT.run (create (.listed Text) 4 (some chassisQuery)) = some (.ok chassisTable) ∧
    ExceptT.run (validateQueryResult (.listed Text) 4 chassisQuery
      ⟨text "query", none, entriesOf textLibrary (resourceViews namedContent) false chassisEntries,
        []⟩) = some (.ok ()) := by
  refine ⟨create_chassisQuery, ?_⟩
  have produced : Produced textLibrary (resourceViews namedContent) false chassisQuery
      chassisEntries := chassisEntries_produced_of_isOk (by decide +kernel)
  apply (validateQueryResult_accepts_iff create_chassisQuery produced rfl rfl).mpr
  refine ⟨by decide, ?_⟩
  intro path dataSet occurs
  rcases occurs_chassisEntries occurs with ⟨rfl, rfl⟩
  refine ⟨?_, fun identified => absurd identified (by decide +kernel), nofun, nofun⟩
  intro key property provided notChild notUri notIdentifier
  have found := List.find?_some provided
  have listed := List.mem_of_find?_eq_some provided
  cases List.mem_singleton.mp (List.mem_reverse.mp listed)
  have named : text "Name" = key := beq_iff_eq.mp (Bool.and_eq_true_iff.mp found).1
  subst named
  exact ⟨rfl, nofun, by decide, .inr rfl⟩

/-- A payload with a location. -/
def locatedContent : Json :=
  .object [(text "Name", .string (text "c")), (text "Location", .object [(text "PartLocation",
    .object [(text "ServiceLabel", .string (text "SLOT"))])])]

/-- The identifier that the normaliser adds is refused by the validator. -/
theorem validateQueryResult_refuses_identifier :
    ExceptT.run (create (.listed Text) 4 (some chassisQuery)) = some (.ok chassisTable) ∧
    Produced textLibrary (resourceViews locatedContent) false chassisQuery chassisEntries ∧
    ExceptT.run (validateQueryResult (.listed Text) 4 chassisQuery
      ⟨text "query", none, entriesOf textLibrary (resourceViews locatedContent) false
        chassisEntries, []⟩) =
      some (.error (.internal (text "Unknown /chassis/_id_ missing from configuration"))) :=
  ⟨create_chassisQuery, chassisEntries_produced_of_isOk (by decide +kernel), rfl⟩

end Ecclesia.Validator
