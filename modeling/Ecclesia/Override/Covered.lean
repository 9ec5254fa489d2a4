import Ecclesia.Library.Bounded
import Ecclesia.Override.TopDown

namespace Ecclesia.Override

open Json List Option

/-!
# What the walk covers

The walk gives what the policy asks for exactly on the values that it covers: no field throws,
no object gets overrides without end, and what has a single element would have been left as
it is anyway.
-/

section

variable {equals : Json -> Json -> Bool}

variable {visit : Json -> Option (Evaluation Json)}

lemma walkItems_mono {other : Json -> Option (Evaluation Json)}
    (same : ∀ item result, visit item = some result -> other item = some result) :
    ∀ {items : List Json} {result : Evaluation (List Json)},
      walkItems visit items = some result -> walkItems other items = some result := by
  intro items
  induction items with
  | nil => exact fun walked => walked
  | cons item rest ih =>
    intro result walked
    rw [walkItems] at walked ⊢
    cases visited : visit item with
    | none =>
      rw [visited] at walked
      cases walked
    | some evaluated =>
      rw [visited] at walked
      rw [same item evaluated visited]
      cases evaluated with
      | error failure => exact walked
      | ok updated =>
        cases visitedRest : walkItems visit rest with
        | none =>
          rw [visitedRest] at walked
          cases walked
        | some evaluatedRest =>
          rw [visitedRest] at walked
          rw [ih visitedRest]
          exact walked

lemma walk_mono {context : OverrideContext} {bound more : Nat} {json : Json}
    {result : Evaluation Json} (enough : bound <= more) :
    walk equals context bound json = some result -> walk equals context more json = some result := by
  refine result_mono (walk equals context) (fun _ => rfl) ?_ enough json result
  intro bound more ih json result walked
  rw [walk] at walked ⊢
  by_cases single : json.size = 1
  · rw [if_pos single] at walked ⊢
    exact walked
  · rw [if_neg single] at walked ⊢
    cases applied : applyOverrides equals context json with
    | error failure =>
      rw [applied] at walked
      exact walked
    | ok updated =>
      rw [applied] at walked
      simp only at walked ⊢
      cases items : walkItems (walk equals context bound) updated.items with
      | none =>
        rw [items] at walked
        cases walked
      | some evaluated =>
        rw [items] at walked
        rw [walkItems_mono ih items]
        exact walked

lemma mapM_mono {visit other : Json -> Option Json}
    (same : ∀ item result, visit item = some result -> other item = some result) :
    ∀ {items results : List Json}, items.mapM visit = some results ->
      items.mapM other = some results := by
  intro items
  induction items with
  | nil => exact fun mapped => mapped
  | cons item rest ih =>
    intro results mapped
    rw [mapM_cons] at mapped ⊢
    rcases bind_eq_some_iff.mp mapped with ⟨result, visited, later⟩
    rcases bind_eq_some_iff.mp later with ⟨restResults, mappedRest, all⟩
    rw [same item result visited, ih mappedRest]
    exact all

variable {re2 : Text -> Option (Text -> Bool)} {policy : OverridePolicy}

lemma topDown_mono {depth more : Nat} {json result : Json} (enough : depth <= more) :
    topDown equals re2 policy depth json = some result ->
      topDown equals re2 policy more json = some result := by
  refine result_mono (topDown equals re2 policy) (fun _ => rfl) ?_ enough json result
  intro depth more ih json result found
  cases json with
  | array elements =>
    rcases map_eq_some_iff.mp found with ⟨items, mapped, same⟩
    exact map_eq_some_iff.mpr ⟨items, mapM_mono ih mapped, same⟩
  | object members =>
    rcases map_eq_some_iff.mp found with ⟨items, mapped, same⟩
    exact map_eq_some_iff.mpr ⟨items, mapM_mono ih mapped, same⟩
  | _ => exact found

/-- No field of a URI is meant for expands only. -/
def OverridePolicy.Unconditional (policy : OverridePolicy) : Prop :=
  ∀ uri fields field, policy.overrideContentMapUri.lookup uri = some fields ->
    field ∈ fields -> field.isExpand ≠ some true

lemma fieldsFor_eq (unconditional : policy.Unconditional) (uri : Text) :
    fieldsFor (setOverridePolicy re2 policy) uri = fieldsOfPolicy re2 policy uri := by
  unfold fieldsFor fieldsOfPolicy setOverridePolicy
  congr 1
  · apply filter_eq_self.mpr
    intro field member
    cases found : policy.overrideContentMapUri.lookup uri with
    | none =>
      simp only [found] at member
      cases member
    | some fields =>
      simp only [found] at member
      have always := unconditional uri fields field found member
      cases isExpand : field.isExpand with
      | none => rfl
      | some flag =>
        cases flag with
        | false => rfl
        | true => exact absurd isExpand always
  · induction policy.overrideContentMapRegex with
    | nil => rfl
    | cons entry rest ih =>
      cases compiled : re2 entry.1 with
      | none => simpa [compiled] using ih
      | some fullMatch =>
        cases matched : fullMatch uri with
        | true => simpa [compiled, matched] using ih
        | false => simpa [compiled, matched] using ih

variable {json updated : Json}

lemma applyField_ok {field : OverrideField} (applied : applyField equals json field = .ok updated) :
    applySkipping equals json field = updated := by
  unfold applyField at applied
  unfold applySkipping
  cases result : resultUpdateHelper equals field json with
  | ok value =>
    rw [result] at applied
    cases applied
    rfl
  | error failure =>
    rw [result] at applied
    cases failure with
    | status status =>
      cases applied
      rfl
    | exception what => cases applied

lemma foldlM_applyField_ok : ∀ {fields : List OverrideField} {json updated : Json},
    fields.foldlM (applyField equals) json = .ok updated ->
      fields.foldl (applySkipping equals) json = updated := by
  intro fields
  induction fields with
  | nil =>
    intro json updated applied
    cases applied
    rfl
  | cons field rest ih =>
    intro json updated applied
    rw [foldlM_cons] at applied
    rw [foldl_cons]
    cases first : applyField equals json field with
    | error failure =>
      rw [first] at applied
      cases applied
    | ok middle =>
      rw [first] at applied
      rw [applyField_ok first]
      exact ih applied

/-- What does not throw gives the value that the policy asks for. -/
lemma applyOverrides_ok (unconditional : policy.Unconditional) (many : json.size ≠ 1)
    (applied : applyOverrides equals (setOverridePolicy re2 policy) json = .ok updated) :
    (ownFields re2 policy json).foldl (applySkipping equals) json = updated := by
  unfold applyOverrides at applied
  unfold ownFields
  cases found : json.find (text "@odata.id") with
  | none =>
    rw [found] at applied
    cases applied
    rfl
  | some id =>
    rw [found] at applied
    cases id with
    | string uri =>
      have further : 2 <= json.size := by
        cases json with
        | object members =>
          cases members with
          | nil => cases found
          | cons first rest =>
            cases rest with
            | nil => exact absurd rfl many
            | cons second others => exact Nat.le_add_left 2 others.length
        | _ => cases found
      simp only [fieldsFor_eq unconditional] at applied
      simp only [if_pos further]
      exact foldlM_applyField_ok applied
    | _ => cases applied

variable {members : List (Text × Json)}

lemma assign_object {name : Text} {value : Json}
    (assigned : (Json.object members).assign name value = .ok updated) :
    ∃ after, updated = .object after := by
  cases assigned
  exact ⟨_, rfl⟩

variable {overrideValue : OverrideValue}

lemma jsonReplace_object (replaced : jsonReplace (.object members) overrideValue = .ok updated) :
    ∃ after, updated = .object after := by
  cases overrideValue with
  | value value =>
    rw [jsonReplace] at replaced
    by_cases different : (Json.object members).type ≠ (valueToJson value).type
    · rw [if_pos different] at replaced
      cases replaced
    · rw [if_neg different] at replaced
      cases replaced
      have same := not_not.mp different
      cases found : valueToJson value with
      | object after => exact ⟨after, rfl⟩
      | _ =>
        rw [found] at same
        cases same
  | overrideByReading => cases replaced
  | notSet => cases replaced

variable {identifier : IndividualObjectIdentifier}

lemma jsonAdd_object (added : jsonAdd (.object members) identifier overrideValue = .ok updated) :
    ∃ after, updated = .object after := by
  cases overrideValue with
  | value value =>
    rw [jsonAdd] at added
    cases identifier with
    | fieldName name =>
      rw [jsonAddValue] at added
      cases found : (Json.object members).find name with
      | none =>
        rw [found] at added
        exact assign_object added
      | some current =>
        rw [found] at added
        cases current with
        | array elements =>
          cases added
          exact ⟨_, rfl⟩
        | _ => cases added
    | _ => cases added
  | overrideByReading => cases added
  | notSet => cases added

variable {members : List (Text × Json)}

lemma jsonClear_object
    {updated : Json} (cleared : jsonClear equals (.object members) identifier = .ok updated) :
    ∃ after, updated = .object after := by
  cases identifier with
  | fieldName name =>
    rw [jsonClear] at cleared
    cases found : members.lookup name with
    | none =>
      simp only [found] at cleared
      cases cleared
    | some current =>
      simp only [found] at cleared
      cases cleared
      exact ⟨_, rfl⟩
  | _ => cases cleared

lemma stepDown_object {act : Json -> Evaluation Json} {updated : Json}
    (acted : stepDown equals act identifier (.object members) = .ok updated) :
    ∃ after, updated = .object after := by
  cases identifier with
  | fieldName name =>
    rw [stepDown] at acted
    cases found : (Json.object members).find name with
    | none =>
      rw [found] at acted
      cases acted
    | some current =>
      rw [found] at acted
      cases deeper : act current with
      | error failure =>
        simp only [deeper] at acted
        cases acted
      | ok result =>
        simp only [deeper] at acted
        cases acted
        exact ⟨_, rfl⟩
  | _ => cases acted

lemma findObjectAndAct_object {action : Action} {identifiers : List IndividualObjectIdentifier}
    (acted : findObjectAndAct equals action identifiers (.object members) = .ok updated) :
    ∃ after, updated = .object after := by
  cases identifiers with
  | nil =>
    cases action with
    | replace overrideValue => exact jsonReplace_object acted
    | _ => cases acted
  | cons identifier rest =>
    cases action with
    | replace overrideValue => exact @stepDown_object equals _ _ _ _ acted
    | add overrideValue =>
      cases rest with
      | nil => exact jsonAdd_object acted
      | cons next others => exact @stepDown_object equals _ _ _ _ acted
    | clear =>
      cases rest with
      | nil => exact @jsonClear_object equals _ _ _ acted
      | cons next others => exact @stepDown_object equals _ _ _ _ acted

lemma applySkipping_object {field : OverrideField} :
    ∃ after, applySkipping equals (.object members) field = .object after := by
  unfold applySkipping
  cases result : resultUpdateHelper equals field (.object members) with
  | error failure => exact ⟨members, rfl⟩
  | ok updated =>
    unfold resultUpdateHelper at result
    cases isAction : field.action with
    | none =>
      rw [isAction] at result
      cases result
    | some acting =>
      rw [isAction] at result
      exact findObjectAndAct_object result

lemma foldl_applySkipping_object : ∀ {fields : List OverrideField} {members : List (Text × Json)},
    ∃ after, fields.foldl (applySkipping equals) (.object members) = .object after := by
  intro fields
  induction fields with
  | nil => exact fun {members} => ⟨members, rfl⟩
  | cons field rest ih =>
    intro members
    rcases @applySkipping_object equals members field with ⟨middle, first⟩
    rw [foldl_cons, first]
    exact ih

/-- What the walk covers. The fields of all but containers of one element must not throw, and what
they hold then must be covered. -/
inductive Covered (equals : Json -> Json -> Bool) (re2 : Text -> Option (Text -> Bool))
    (policy : OverridePolicy) : Json -> Prop where
  | single (json : Json) (one : json.size = 1)
      (leftAlone : ∃ depth, topDown equals re2 policy depth json = some json) :
      Covered equals re2 policy json
  | updated (json updated : Json) (many : json.size ≠ 1)
      (applied : applyOverrides equals (setOverridePolicy re2 policy) json = .ok updated)
      (inside : ∀ item ∈ updated.items, Covered equals re2 policy item) :
      Covered equals re2 policy json

/-- The walk ends without an exception and gives what the policy asks for. -/
def Agrees (equals : Json -> Json -> Bool) (re2 : Text -> Option (Text -> Bool))
    (policy : OverridePolicy) (json : Json) : Prop :=
  ∃ result,
    (∃ bound, walk equals (setOverridePolicy re2 policy) bound json = some (.ok result)) ∧
    ∃ depth, topDown equals re2 policy depth json = some result

lemma agrees_items : ∀ {items : List Json}, (∀ item ∈ items, Agrees equals re2 policy item) ->
    ∃ results bound depth,
      walkItems (walk equals (setOverridePolicy re2 policy) bound) items = some (.ok results) ∧
      items.mapM (topDown equals re2 policy depth) = some results := by
  intro items
  induction items with
  | nil => exact fun _ => ⟨[], 0, 0, rfl, rfl⟩
  | cons item rest ih =>
    intro agrees
    rcases agrees item (.head _) with ⟨result, ⟨bound, walked⟩, depth, found⟩
    rcases ih fun other member => agrees other (.tail _ member) with
      ⟨results, boundRest, depthRest, walkedRest, foundRest⟩
    refine ⟨result :: results, max bound boundRest, max depth depthRest, ?_, ?_⟩
    · rw [walkItems, walk_mono (Nat.le_max_left bound boundRest) walked]
      have longer := walkItems_mono
        (fun item result => @walk_mono equals _ _ _ item result
          (Nat.le_max_right bound boundRest)) walkedRest
      simp only [longer]
    · rw [mapM_cons, topDown_mono (Nat.le_max_left depth depthRest) found]
      have longer := mapM_mono
        (fun item result => @topDown_mono equals re2 policy _ _ item result
          (Nat.le_max_right depth depthRest)) foundRest
      rw [longer]
      rfl

/-- The recursion on what is not primitive. -/
lemma topDown_container (many : json.size ≠ 1) (depth : Nat) :
    topDown equals re2 policy (depth + 1) json =
      ((((ownFields re2 policy json).foldl (applySkipping equals) json).items.mapM
        (topDown equals re2 policy depth)).map
          ((ownFields re2 policy json).foldl (applySkipping equals) json).withItems) := by
  cases json with
  | array elements => rfl
  | object members => rfl
  | null => rfl
  | _ => exact absurd rfl many

lemma Covered.agrees (unconditional : policy.Unconditional)
    (covered : Covered equals re2 policy json) : Agrees equals re2 policy json := by
  induction covered with
  | single json one leftAlone =>
    refine ⟨json, ⟨1, ?_⟩, leftAlone⟩
    rw [walk, if_pos one]
  | updated json updated many applied _ ih =>
    rcases agrees_items ih with ⟨results, bound, depth, walked, found⟩
    refine ⟨updated.withItems results, ⟨bound + 1, ?_⟩, depth + 1, ?_⟩
    · rw [walk, if_neg many, applied]
      simp only [walked]
    · rw [topDown_container many, applyOverrides_ok unconditional many applied, found]
      rfl

lemma withItems_injective {first second : List Json}
    (container : json = .null ∨ (∃ elements, json = .array elements) ∨
      ∃ members, json = .object members) (lengthFirst : first.length = json.items.length)
    (lengthSecond : second.length = json.items.length)
    (same : json.withItems first = json.withItems second) : first = second := by
  rcases container with rfl | ⟨elements, rfl⟩ | ⟨members, rfl⟩
  · rw [length_eq_zero_iff.mp lengthFirst, length_eq_zero_iff.mp lengthSecond]
  · exact Json.array.inj same
  · have zipped := Json.object.inj same
    simp only [items] at lengthFirst lengthSecond
    have unzipped := congrArg (List.map Prod.snd) zipped
    rw [map_snd_zip (by simp [lengthFirst]), map_snd_zip (by simp [lengthSecond])] at unzipped
    exact unzipped

lemma applyOverrides_container (unconditional : policy.Unconditional) (many : json.size ≠ 1)
    (applied : applyOverrides equals (setOverridePolicy re2 policy) json = .ok updated) :
    updated = .null ∨ (∃ elements, updated = .array elements) ∨
      ∃ members, updated = .object members := by
  cases json with
  | null =>
    cases applied
    exact .inl rfl
  | array elements =>
    cases applied
    exact .inr (.inl ⟨elements, rfl⟩)
  | object members =>
    rw [<- applyOverrides_ok unconditional many applied]
    exact .inr (.inr foldl_applySkipping_object)
  | _ => exact absurd rfl many

lemma length_walkItems :
    ∀ {items results : List Json}, walkItems visit items = some (.ok results) ->
      results.length = items.length := by
  intro items
  induction items with
  | nil =>
    intro results walked
    cases walked
    rfl
  | cons item rest ih =>
    intro results walked
    rw [walkItems] at walked
    split at walked
    · cases walked
    · cases walked
    · split at walked
      · cases walked
      · cases walked
      · rename_i updatedRest walkedRest
        cases walked
        rw [length_cons, length_cons, ih walkedRest]

lemma length_mapM {visit : Json -> Option Json} : ∀ {items results : List Json},
    items.mapM visit = some results -> results.length = items.length := by
  intro items
  induction items with
  | nil =>
    intro results mapped
    cases mapped
    rfl
  | cons item rest ih =>
    intro results mapped
    rw [mapM_cons] at mapped
    rcases bind_eq_some_iff.mp mapped with ⟨result, _, later⟩
    rcases bind_eq_some_iff.mp later with ⟨restResults, mappedRest, all⟩
    cases all
    rw [length_cons, length_cons, ih mappedRest]

lemma results_of_items {other : Json -> Option Json} :
    ∀ {items results : List Json}, walkItems visit items = some (.ok results) ->
      items.mapM other = some results ->
      ∀ item ∈ items, ∃ result, visit item = some (.ok result) ∧ other item = some result := by
  intro items
  induction items with
  | nil => exact fun _ _ item member => absurd member not_mem_nil
  | cons first rest ih =>
    intro results walked mapped item member
    rw [mapM_cons] at mapped
    rcases bind_eq_some_iff.mp mapped with ⟨result, found, later⟩
    rcases bind_eq_some_iff.mp later with ⟨restResults, mappedRest, all⟩
    cases all
    rw [walkItems] at walked
    split at walked
    · cases walked
    · cases walked
    · rename_i updated visited
      split at walked
      · cases walked
      · cases walked
      · rename_i updatedRest walkedRest
        cases walked
        rcases mem_cons.mp member with rfl | isLater
        · exact ⟨result, visited, found⟩
        · exact ih walkedRest mappedRest item isLater

lemma covered_of_agrees (unconditional : policy.Unconditional) : ∀ {bound depth : Nat}
    {json result : Json},
    walk equals (setOverridePolicy re2 policy) bound json = some (.ok result) ->
      topDown equals re2 policy depth json = some result -> Covered equals re2 policy json := by
  intro bound
  induction bound with
  | zero =>
    intro depth json result walked
    cases walked
  | succ bound ih =>
    intro depth json result walked found
    rw [walk] at walked
    by_cases one : json.size = 1
    · rw [if_pos one] at walked
      cases walked
      exact .single json one ⟨depth, found⟩
    · rw [if_neg one] at walked
      cases depth with
      | zero => cases found
      | succ depth =>
        cases applied : applyOverrides equals (setOverridePolicy re2 policy) json with
        | error failure =>
          rw [applied] at walked
          cases walked
        | ok updated =>
          rw [applied] at walked
          rw [topDown_container one, applyOverrides_ok unconditional one applied] at found
          rcases map_eq_some_iff.mp found with ⟨results, mapped, same⟩
          refine .updated json updated one applied ?_
          simp only at walked
          split at walked
          · cases walked
          · cases walked
          · rename_i items walkedItems
            have equal : items = results := by
              apply withItems_injective
                (applyOverrides_container unconditional one applied)
                (length_walkItems walkedItems) (length_mapM mapped)
              rw [same]
              exact Except.ok.inj (some.inj walked)
            rw [equal] at walkedItems
            intro item member
            rcases results_of_items walkedItems mapped item member with
              ⟨itemResult, walkedItem, foundItem⟩
            exact ih walkedItem foundItem

end

/-- The transport has the policy, or gets it when it asks for it. -/
def Provides (re2 : Text -> Option (Text -> Bool)) (policy : OverridePolicy)
    (overridePolicyCb : StatusOr OverridePolicy) (context : Option OverrideContext) : Prop :=
  context = some (setOverridePolicy re2 policy) ∨ (context = none ∧ overridePolicyCb = .ok policy)

lemma tryApplyingOverride_eq {equals : Json -> Json -> Bool} {re2 : Text -> Option (Text -> Bool)}
    {policy : OverridePolicy} {overridePolicyCb : StatusOr OverridePolicy}
    {context : Option OverrideContext} (provides : Provides re2 policy overridePolicyCb context)
    (bound : Nat) (code : Int) (json : Json) :
    tryApplyingOverride equals re2 overridePolicyCb bound ⟨code, .inl json⟩ context =
      (walk equals (setOverridePolicy re2 policy) bound json).map fun walked =>
        walked.map fun updated => (⟨code, .inl updated⟩, some (setOverridePolicy re2 policy)) := by
  have fresh : Fresh [] HashSet.empty := forall_mem_nil _
  rcases @resultExpandUpdateHelper_eq equals (setOverridePolicy re2 policy) bound [] json .empty
    fresh with ⟨after, _, same⟩
  have initialized : tryApplyingOverride equals re2 overridePolicyCb bound ⟨code, .inl json⟩
      context =
        (resultExpandUpdateHelper equals (setOverridePolicy re2 policy) bound [] json .empty).map
          fun walked => walked.map fun updated =>
            (⟨code, .inl updated.1⟩, some (setOverridePolicy re2 policy)) := by
    rcases provides with rfl | ⟨rfl, rfl⟩
    · rfl
    · rfl
  rw [initialized, same]
  cases walk equals (setOverridePolicy re2 policy) bound json with
  | none => rfl
  | some evaluated =>
    cases evaluated with
    | error failure => rfl
    | ok updated => rfl

/-- A policy that replaces the name of one resource. -/
def renamePolicy : OverridePolicy where
  overrideContentMapUri :=
    HashMap.empty.assign (text "/redfish/v1/Chassis/1")
      [⟨some (.replace (.value (.stringValue (text "new"))), [.fieldName (text "Name")]), none⟩]
  overrideContentMapRegex := []

lemma renamePolicy_unconditional : renamePolicy.Unconditional := by
  intro uri fields field found member
  unfold renamePolicy at found
  simp only [HashMap.lookup_assign] at found
  split at found
  · cases found
    rw [mem_singleton.mp member]
    exact (some_ne_none true).symm
  · cases found

/-- The resource with a name. -/
def namedChassis (name : String) : Json :=
  .object [(text "@odata.id", .string (text "/redfish/v1/Chassis/1")),
    (text "Name", .string (text name))]

/-- A collection that was expanded and has the resource as its only member. -/
def chassisCollection (name : String) : Json :=
  .object [(text "@odata.id", .string (text "/redfish/v1/Chassis")),
    (text "Members", .array [namedChassis name])]

/-- The name of the first member of a collection. -/
def firstName (json : Json) : Option Text :=
  match json.find (text "Members") with
  | some (.array (first :: _)) => (first.find (text "Name")).bind Json.string?
  | _ => none

end Ecclesia.Override
