import Ecclesia.Planner.Table

namespace Ecclesia.Planner

open Absl List Bool

/-!
# Identifiers of collected properties

The identifiers of a resource are found once and then moved into the entries.  What is moved
into the first entry is missing in the second.
-/

namespace CollectIdentifiers

/-- The identifier of the resource: that of its related item, its own, or that of its
chassis. -/
def chosen (identifiers : CollectIdentifiers) : Option Identifier :=
  (identifiers.relatedItem.or identifiers.own).or identifiers.pcieDevice

/-- What the first entry leaves. -/
def moved (identifiers : CollectIdentifiers) : CollectIdentifiers :=
  let sensorLeft := identifiers.sensor.map fun _ => .empty
  match identifiers.relatedItem, identifiers.own with
  | some _, _ => { identifiers with relatedItem := some .empty, sensor := sensorLeft }
  | none, some _ => { identifiers with sensor := sensorLeft }
  | none, none =>
    { identifiers with
      pcieDevice := identifiers.pcieDevice.map fun _ => .empty
      sensor := sensorLeft }

/-- Nothing with a content is moved: no sensor identifier, and only the resource's own. -/
def Lasts (identifiers : CollectIdentifiers) : Prop :=
  identifiers.sensor.getD .empty = .empty ∧
    (identifiers.relatedItem.getD .empty = .empty) ∧
    (identifiers.relatedItem = none -> identifiers.own = none ->
      identifiers.pcieDevice.getD .empty = .empty)

variable (identifiers : CollectIdentifiers)

lemma hand_eq (value : QueryValue) :
    identifiers.hand value =
      (⟨identifiers.chosen, value, identifiers.sensor⟩, identifiers.moved) := by
  rcases identifiers with ⟨_ | related, _ | own, pcieDevice, sensor⟩
  · rfl
  · rfl
  · rfl
  · rfl

lemma Lasts.moved_eq {identifiers : CollectIdentifiers} (lasts : identifiers.Lasts) :
    identifiers.moved = identifiers := by
  rcases identifiers with ⟨relatedItem, own, pcieDevice, sensor⟩
  rcases lasts with ⟨noSensor, noRelated, noChassis⟩
  have sensorLeft : sensor.map (fun _ => .empty) = sensor := by
    cases sensor with
    | none => rfl
    | some sensor => exact congrArg some noSensor.symm
  cases relatedItem with
  | some related =>
    simp only [moved, sensorLeft]
    rw [show related = .empty from noRelated]
  | none =>
    cases own with
    | some own => simp only [moved, sensorLeft]
    | none =>
      have chassisLeft : pcieDevice.map (fun _ => .empty) = pcieDevice := by
        cases pcieDevice with
        | none => rfl
        | some chassis => exact congrArg some (noChassis rfl rfl).symm
      simp only [moved, sensorLeft, chassisLeft]

lemma lasts_of_moved (sameChosen : identifiers.moved.chosen = identifiers.chosen)
    (sameSensor : identifiers.moved.sensor = identifiers.sensor) : identifiers.Lasts := by
  rcases identifiers with ⟨relatedItem, own, pcieDevice, sensor⟩
  have noSensor : sensor.getD .empty = .empty := by
    cases sensor with
    | none => rfl
    | some sensor =>
      rcases relatedItem with _ | related <;> rcases own with _ | own <;>
        exact (Option.some.inj sameSensor).symm
  refine ⟨noSensor, ?_, ?_⟩
  · cases relatedItem with
    | none => rfl
    | some related => exact (Option.some.inj sameChosen).symm
  · intro noRelated noOwn
    subst noRelated noOwn
    cases pcieDevice with
    | none => rfl
    | some chassis => exact (Option.some.inj sameChosen).symm

def handPairs (identifiers : CollectIdentifiers) :
    List (Text × QueryValue) -> List (Text × CollectedProperty)
  | [] => []
  | (key, value) :: rest =>
    (key, ⟨identifiers.chosen, value, identifiers.sensor⟩) :: identifiers.moved.handPairs rest

/-- What some entries leave. -/
def movedBy (identifiers : CollectIdentifiers) (count : Nat) : CollectIdentifiers :=
  Nat.iterate moved count identifiers

lemma handPairs_append (first second : List (Text × QueryValue)) :
    identifiers.handPairs (first ++ second) =
      identifiers.handPairs first ++ (identifiers.movedBy first.length).handPairs second := by
  induction first generalizing identifiers with
  | nil => rfl
  | cons pair rest ih =>
    rw [cons_append, handPairs, ih]
    rfl

lemma handAll_eq (value : QueryValue) (keys : List Text) :
    identifiers.handAll value keys =
      (identifiers.handPairs (keys.map fun key => (key, value)),
        identifiers.movedBy keys.length) := by
  induction keys generalizing identifiers with
  | nil => rfl
  | cons key keys ih =>
    rw [handAll, hand_eq]
    change ((_, _) :: (identifiers.moved.handAll value keys).1,
      (identifiers.moved.handAll value keys).2) = _
    rw [ih]
    rfl

def IsOf (identifiers : CollectIdentifiers) (entry : Text × CollectedProperty) : Prop :=
  entry.2.identifier = identifiers.chosen ∧ entry.2.sensorIdentifier = identifiers.sensor

/-- All entries have the identifiers of the resource exactly if there is at most one, or they last.
-/
lemma handPairs_isOf_iff (pairs : List (Text × QueryValue)) :
    (∀ entry ∈ identifiers.handPairs pairs, identifiers.IsOf entry) ↔
      pairs.length <= 1 ∨ identifiers.Lasts := by
  constructor
  · intro alike
    rcases pairs with _ | ⟨first, _ | ⟨second, rest⟩⟩
    · exact .inl (Nat.zero_le 1)
    · exact .inl (le_refl 1)
    · have same := alike _ (.tail _ (.head _))
      exact .inr (identifiers.lasts_of_moved same.1 same.2)
  · rintro (few | lasts)
    · rcases pairs with _ | ⟨first, _ | ⟨second, rest⟩⟩
      · exact forall_mem_nil _
      · intro entry member
        rw [mem_singleton.mp member]
        exact ⟨rfl, rfl⟩
      · exact absurd few (by simp)
    · induction pairs with
      | nil =>
        exact forall_mem_nil _
      | cons pair rest ih =>
        intro entry member
        rw [handPairs, lasts.moved_eq] at member
        rcases mem_cons.mp member with isFirst | isLater
        · rw [isFirst]
          exact ⟨rfl, rfl⟩
        · exact ih entry isLater

end CollectIdentifiers

def firstOfPath : List RedfishProperty -> List RedfishProperty
  | [] => []
  | prop :: rest =>
    prop :: (firstOfPath rest).filter fun later => later.property != prop.property

/-- The keys of a property that has a value in the result, each with the value. -/
def pairsOf (fields : QueryResultData) (prop : RedfishProperty) : List (Text × QueryValue) :=
  match fields.lookup (if prop.name.isEmpty then prop.property else prop.name) with
  | none => []
  | some value => prop.collectAs.map fun key => (key, value)

/-- What is collected for some properties: those with keys, one for every path. -/
def collectedPairs (fields : QueryResultData) (properties : List RedfishProperty) :
    List (Text × QueryValue) :=
  (firstOfPath (properties.filter fun prop => !prop.collectAs.isEmpty)).flatMap (pairsOf fields)

def unseenPairs (fields : QueryResultData) (seen : List Text)
    (properties : List RedfishProperty) : List (Text × QueryValue) :=
  ((firstOfPath (properties.filter fun prop => !prop.collectAs.isEmpty)).filter fun prop =>
    !seen.contains prop.property).flatMap (pairsOf fields)

/-- The paths that are known behind some properties. -/
def seenAfter (seen : List Text) : List RedfishProperty -> List Text
  | [] => seen
  | prop :: rest =>
    if prop.collectAs.isEmpty || seen.contains prop.property then seenAfter seen rest
    else seenAfter (prop.property :: seen) rest

section

variable (fields : QueryResultData)

lemma unseenPairs_skip {seen : List Text} {prop : RedfishProperty}
    (skipped : (prop.collectAs.isEmpty || seen.contains prop.property) = true)
    (rest : List RedfishProperty) :
    unseenPairs fields seen (prop :: rest) = unseenPairs fields seen rest := by
  unfold unseenPairs
  cases keyless : prop.collectAs.isEmpty with
  | true =>
    rw [filter_cons, keyless]
    rfl
  | false =>
    rw [keyless, Bool.false_or] at skipped
    rw [filter_cons, keyless, Bool.not_false, if_pos rfl, firstOfPath, filter_cons,
      skipped, filter_filter]
    congr 1
    apply filter_congr
    intro later _
    cases unseen : seen.contains later.property with
    | true => rfl
    | false =>
      have differs : later.property ≠ prop.property := by
        intro same
        rw [same, skipped] at unseen
        cases unseen
      simp [differs]

lemma unseenPairs_take {seen : List Text} {prop : RedfishProperty}
    (taken : (prop.collectAs.isEmpty || seen.contains prop.property) = false)
    (rest : List RedfishProperty) :
    unseenPairs fields seen (prop :: rest) =
      pairsOf fields prop ++ unseenPairs fields (prop.property :: seen) rest := by
  rcases or_eq_false_iff.mp taken with ⟨keyed, unseen⟩
  unfold unseenPairs
  rw [filter_cons, keyed, Bool.not_false, if_pos rfl, firstOfPath, filter_cons, unseen,
    Bool.not_false, if_pos rfl, filter_filter, flatMap_cons]
  congr 2
  apply filter_congr
  intro later _
  rw [contains_cons, Bool.not_or, Bool.and_comm]
  rfl

lemma getCollectedProperty_eq (seen : List Text) (identifiers : CollectIdentifiers)
    (properties : List RedfishProperty) :
    getCollectedProperty fields seen identifiers properties =
      (identifiers.handPairs (unseenPairs fields seen properties), seenAfter seen properties,
        identifiers.movedBy (unseenPairs fields seen properties).length) := by
  induction properties generalizing seen identifiers with
  | nil => rfl
  | cons prop rest ih =>
    rw [getCollectedProperty, seenAfter]
    cases skipped : prop.collectAs.isEmpty || seen.contains prop.property with
    | true =>
      rw [unseenPairs_skip fields skipped]
      exact ih seen identifiers
    | false =>
      rw [unseenPairs_take fields skipped, CollectIdentifiers.handPairs_append]
      unfold pairsOf
      simp only [false_eq_true, if_false]
      cases found : fields.lookup (if prop.name.isEmpty then prop.property else prop.name) with
      | none => exact ih (prop.property :: seen) identifiers
      | some value =>
        simp only [CollectIdentifiers.handAll_eq]
        rw [ih]
        simp only [length_append, length_map]
        rw [CollectIdentifiers.movedBy, CollectIdentifiers.movedBy,
          CollectIdentifiers.movedBy, Nat.add_comm, Function.iterate_add_apply]

lemma unseenPairs_append (seen : List Text) (first second : List RedfishProperty) :
    unseenPairs fields seen (first ++ second) =
      unseenPairs fields seen first ++ unseenPairs fields (seenAfter seen first) second := by
  induction first generalizing seen with
  | nil => rfl
  | cons prop rest ih =>
    rw [cons_append, seenAfter]
    cases skipped : prop.collectAs.isEmpty || seen.contains prop.property with
    | true =>
      rw [unseenPairs_skip fields skipped, unseenPairs_skip fields skipped]
      exact ih seen
    | false =>
      rw [unseenPairs_take fields skipped, unseenPairs_take fields skipped, append_assoc]
      exact congrArg _ (ih (prop.property :: seen))

lemma unseenPairs_nil (properties : List RedfishProperty) :
    unseenPairs fields [] properties = collectedPairs fields properties := by
  unfold unseenPairs collectedPairs
  congr 1
  exact filter_eq_self.mpr fun prop _ => rfl

variable {World Object Iterable : Type} (planner : QueryPlanner World Object Iterable)

/-- The identifiers that are found for a resource. -/
def collectIdentifiers (fields : QueryResultData)
    (interface : Option (RedfishInterface World Object Iterable)) (object : Object)
    (urlAnnotationEnabled : Bool) : StateM World CollectIdentifiers := do
  let sensor <- createSensorIdentifier planner object
  let relatedItem <- match sensor with
    | some _ => getRelatedItemIdentifier planner interface object urlAnnotationEnabled
    | none => pure none
  let pcieDevice <- getPcieDeviceIdentifier planner interface object urlAnnotationEnabled
  let own := (fields.lookup kIdentifierTag).bind QueryValue.identifier?
  return ⟨relatedItem, own, pcieDevice, sensor⟩

def collectingProperties (subquery : Subquery) : List RedfishProperty :=
  subquery.properties ++ subquery.normalizedProperties

/-- `ApplyCollectAs` hands the identifiers of the resource to all that is collected. -/
lemma applyCollectAs_eq (subquery : Subquery) (fields : QueryResultData)
    (interface : Option (RedfishInterface World Object Iterable)) (object : Object)
    (urlAnnotationEnabled : Bool) (world : World) :
    (applyCollectAs planner subquery fields interface object urlAnnotationEnabled world).1 =
      (collectIdentifiers planner fields interface object urlAnnotationEnabled world).1.handPairs
        (collectedPairs fields (collectingProperties subquery)) := by
  unfold applyCollectAs
  cases idle : subquery.properties.all (fun prop => prop.collectAs.isEmpty) &&
      subquery.normalizedProperties.isEmpty with
  | true =>
    rcases and_eq_true_iff.mp idle with ⟨keyless, none⟩
    have nothing : collectedPairs fields (collectingProperties subquery) = [] := by
      unfold collectedPairs collectingProperties
      rw [List.isEmpty_iff.mp none, append_nil, filter_eq_nil_iff.mpr]
      · rfl
      · intro prop member
        rw [all_eq_true.mp keyless prop member]
        decide
    rw [nothing]
    rfl
  | false =>
    rw [<- unseenPairs_nil, collectingProperties, unseenPairs_append,
      CollectIdentifiers.handPairs_append]
    have looped : ∀ identifiers : CollectIdentifiers,
        (getCollectedProperty fields [] identifiers subquery.properties).1 ++
          (getCollectedProperty fields
            (getCollectedProperty fields [] identifiers subquery.properties).2.1
            (getCollectedProperty fields [] identifiers subquery.properties).2.2
            subquery.normalizedProperties).1 =
          identifiers.handPairs (unseenPairs fields [] subquery.properties) ++
            (identifiers.movedBy (unseenPairs fields [] subquery.properties).length).handPairs
              (unseenPairs fields (seenAfter [] subquery.properties)
                subquery.normalizedProperties) := by
      intro identifiers
      rw [getCollectedProperty_eq, getCollectedProperty_eq]
    rw [<- looped]
    unfold collectIdentifiers
    simp only [bind, StateT.bind, false_eq_true, if_false]
    rcases createSensorIdentifier planner object world with ⟨_ | sensor, found⟩
    · rfl
    · rfl

end

/-- All entries for a resource have its identifiers exactly if at most one key has a value, or they
last. -/
theorem collects_identity_iff {World Object Iterable : Type} :
    ∀ (planner : QueryPlanner World Object Iterable) (subquery : Subquery)
        (fields : QueryResultData) (interface : Option (RedfishInterface World Object Iterable))
        (object : Object) (urlAnnotationEnabled : Bool) (world : World),
      (∀ entry ∈ (applyCollectAs planner subquery fields interface object urlAnnotationEnabled
            world).1,
          (collectIdentifiers planner fields interface object urlAnnotationEnabled
            world).1.IsOf entry) ↔
        (collectedPairs fields (collectingProperties subquery)).length <= 1 ∨
          (collectIdentifiers planner fields interface object urlAnnotationEnabled
            world).1.Lasts := by
  intro planner subquery fields interface object urlAnnotationEnabled world
  rw [applyCollectAs_eq]
  exact CollectIdentifiers.handPairs_isOf_iff _ _

/-- A fan sensor whose related item is another resource. -/
def fanTable : ServiceTable where
  root := .ofObject 0
  nodes := [((0, text "@odata.type"), .ofString (text "#Sensor.v1_0_0.Sensor")),
    ((0, text "Name"), .ofString (text "Fan"))]
  members := []
  contents := [(0, .object [(text "RelatedItem",
    .array [.object [(propertyOdataId, .string (text "/fan"))]])])]

def fanIdentifier : Identifier :=
  ⟨some (text "/phys/fan"), none, none, none, none⟩

/-- A planner that finds this identifier. -/
def fanPlanner : QueryPlanner Unit Nat Nat :=
  { tablePlanner fanTable [] (.mk [] []) .failOnFirstError with
    normalizer := fun _ _ _ =>
      pure (.ok [(kIdentifierTag, .identifier fanIdentifier)]) }

/-- Every URI leads to the fan. -/
def fanInterface : RedfishInterface Unit Nat Nat where
  getRoot _ _ := return .ofObject 0
  cachedGetUri _ _ := return .ofObject 1

/-- Two properties are collected under keys of their own. -/
def fanSubquery : Subquery :=
  ⟨text "fan", [], [⟨text "Reading", [], [text "readings"], .int64, .unspecified, false⟩,
    ⟨text "ReadingUnits", [], [text "units"], .string, .unspecified, false⟩], [], none, .notSet,
    .unspecified, none⟩

/-- The second property of a sensor has lost its identifiers. -/
theorem loses_identity :
    (applyCollectAs fanPlanner fanSubquery
        [(text "Reading", .int 7), (text "ReadingUnits", .string (text "RPM"))]
        (some fanInterface) 0 false ()).1.map
          (fun entry => (entry.1, entry.2.identifier, entry.2.sensorIdentifier)) =
      [(text "readings", some fanIdentifier, some ⟨text "Fan", [], []⟩),
        (text "units", some .empty, some .empty)] := by
  rfl

end Ecclesia.Planner
