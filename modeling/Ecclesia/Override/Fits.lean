import Ecclesia.Override.InPlace

namespace Ecclesia.Override

open Json List
open Evaluation (invalidArgument)

/-!
# Fields that fit a value

A field that does not fit a value is refused with a status, with two exceptions.  An addition
or a clearing without identifiers reads an identifier that is not there.  And an addition of
a field to something that is neither an object nor null is not refused: `operator[]` throws.
A clearing checks that it comes to an object, and an addition does not.
-/

section

variable (equals : Json -> Json -> Bool)

/-- The part of a value that an identifier leads to. -/
def partAt (identifier : IndividualObjectIdentifier) (json : Json) : Option Json :=
  match identifier with
  | .fieldName name => json.find name
  | .arrayField fieldName value =>
    match json with
    | .array elements =>
      (elements.findIdx? (hasField equals fieldName value)).map fun index =>
        elements.getD index .null
    | _ => none
  | .arrayIdx index =>
    match json with
    | .array elements => if index < 0 then none else elements[index.toNat]?
    | _ => none
  | .notSet => none

def follow : List IndividualObjectIdentifier -> Json -> Option Json
  | [], json => some json
  | identifier :: rest, json => (partAt equals identifier json).bind (follow rest)

def Throws {Value : Type} (evaluation : Evaluation Value) : Prop :=
  ∃ what, evaluation = .error (.exception what)

lemma not_throws_ok {Value : Type} (value : Value) : ¬ Throws (.ok value : Evaluation Value) := by
  rintro ⟨what, impossible⟩
  cases impossible

lemma not_throws_status {Value : Type} (status : Status) :
    ¬ Throws (.error (.status status) : Evaluation Value) := by
  rintro ⟨what, impossible⟩
  cases impossible

lemma throws_map {Value Result : Type} (evaluation : Evaluation Value) (f : Value -> Result) :
    Throws (evaluation.map f) ↔ Throws evaluation := by
  cases evaluation with
  | ok value => exact iff_of_false (not_throws_ok _) (not_throws_ok _)
  | error failure => exact ⟨fun ⟨what, same⟩ => ⟨what, by cases same; rfl⟩,
      fun ⟨what, same⟩ => ⟨what, by cases same; rfl⟩⟩

lemma throws_stepDown (act : Json -> Evaluation Json) (identifier : IndividualObjectIdentifier)
    (json : Json) :
    Throws (stepDown equals act identifier json) ↔
      ∃ part, partAt equals identifier json = some part ∧ Throws (act part) := by
  unfold stepDown partAt
  cases identifier with
  | fieldName name =>
    simp only
    cases json.find name with
    | none => simp [invalidArgument, not_throws_status]
    | some found => simp [throws_map]
  | arrayField fieldName value =>
    cases json with
    | array elements =>
      simp only
      cases elements.findIdx? (hasField equals fieldName value) with
      | none => simp [invalidArgument, not_throws_status]
      | some index => simp [throws_map]
    | _ => simp [invalidArgument, not_throws_status]
  | arrayIdx index =>
    cases json with
    | array elements =>
      simp only
      split
      · simp [invalidArgument, not_throws_status]
      · cases elements[index.toNat]? with
        | none => simp [invalidArgument, not_throws_status]
        | some found => simp [throws_map]
    | _ => simp [invalidArgument, not_throws_status]
  | notSet => simp [invalidArgument, not_throws_status]

lemma not_throws_jsonReplace (json : Json) (overrideValue : OverrideValue) :
    ¬ Throws (jsonReplace json overrideValue) := by
  unfold jsonReplace
  cases overrideValue with
  | value value =>
    simp only
    split
    · exact not_throws_status _
    · exact not_throws_ok _
  | overrideByReading => exact not_throws_status _
  | notSet => exact not_throws_status _

lemma not_throws_jsonClear (json : Json) (identifier : IndividualObjectIdentifier) :
    ¬ Throws (jsonClear equals json identifier) := by
  unfold jsonClear
  cases identifier with
  | fieldName name =>
    simp only
    split
    · split
      · exact not_throws_status _
      · exact not_throws_ok _
    · exact not_throws_status _
  | arrayField fieldName value =>
    simp only
    split
    · split
      · exact not_throws_ok _
      · exact not_throws_status _
    · exact not_throws_status _
  | arrayIdx index =>
    simp only
    split
    · split
      · exact not_throws_status _
      · exact not_throws_ok _
    · exact not_throws_status _
  | notSet => exact not_throws_status _

end

/-- `operator[]` with a name does not throw: the value is an object, or null and becomes one. -/
def takesMember : Json -> Bool
  | .null => true
  | .object _ => true
  | _ => false

lemma throws_assign (json : Json) (name : Text) (value : Json) :
    Throws (json.assign name value) ↔ takesMember json = false := by
  cases json with
  | null => exact iff_of_false (not_throws_ok _) nofun
  | object members => exact iff_of_false (not_throws_ok _) nofun
  | _ => exact iff_of_true ⟨_, rfl⟩ rfl

lemma takesMember_of_find {json value : Json} {name : Text}
    (found : json.find name = some value) : takesMember json = true := by
  cases json with
  | object members => rfl
  | _ => cases found

lemma throws_jsonAdd (json : Json) (identifier : IndividualObjectIdentifier)
    (overrideValue : OverrideValue) :
    Throws (jsonAdd json identifier overrideValue) ↔
      (∃ value, overrideValue = .value value) ∧ (∃ name, identifier = .fieldName name) ∧
        takesMember json = false := by
  unfold jsonAdd
  cases overrideValue with
  | overrideByReading => simp [not_throws_status]
  | notSet => simp [invalidArgument, not_throws_status]
  | value value =>
    simp only [jsonAddValue]
    cases identifier with
    | fieldName name =>
      simp only
      cases found : json.find name with
      | none => simp [throws_assign]
      | some present =>
        have takes := takesMember_of_find found
        cases present <;>
          simp [takes, not_throws_ok, invalidArgument, not_throws_status]
    | arrayField fieldName value => simp [invalidArgument, not_throws_status]
    | arrayIdx index =>
      simp only [reduceCtorEq, exists_false, false_and, and_false, iff_false]
      split
      · split
        · exact not_throws_status _
        · split
          · exact not_throws_status _
          · exact not_throws_ok _
          · exact not_throws_status _
      · exact not_throws_status _
    | notSet => simp [invalidArgument, not_throws_status]

section

variable (equals : Json -> Json -> Bool)

/-- An addition or a clearing has identifiers, and where a field is added, there is an object or
null. -/
structure Fits (action : Action) (identifiers : List IndividualObjectIdentifier) (json : Json) :
    Prop where
  identified : (∀ overrideValue, action ≠ .replace overrideValue) -> identifiers ≠ []
  member : ∀ value path name target, action = .add (.value value) ->
    identifiers = path ++ [.fieldName name] -> follow equals path json = some target ->
    takesMember target = true

lemma fits_cons {action : Action} {identifier : IndividualObjectIdentifier}
    {rest : List IndividualObjectIdentifier} (deeper : rest ≠ []) {json : Json} :
    Fits equals action (identifier :: rest) json ↔
      ∀ part, partAt equals identifier json = some part -> Fits equals action rest part := by
  constructor
  · intro fits part found
    refine ⟨fun _ => deeper, ?_⟩
    intro value path name target isAdd split followed
    refine fits.member value (identifier :: path) name target isAdd ?_ ?_
    · rw [split, cons_append]
    · rw [follow, found, Option.bind_some, followed]
  · intro fits
    refine ⟨fun _ => cons_ne_nil _ _, ?_⟩
    intro value path name target isAdd split followed
    cases path with
    | nil => exact absurd (cons.inj split).2 deeper
    | cons first path =>
      rcases cons.inj split with ⟨rfl, sameRest⟩
      rcases Option.bind_eq_some_iff.mp followed with ⟨part, found, followedRest⟩
      exact (fits part found).member value path name target isAdd sameRest followedRest

section

variable (overrideValue : OverrideValue) (identifiers : List IndividualObjectIdentifier)

lemma not_throws_replace :
    ∀ json, ¬ Throws (findObjectAndAct equals (.replace overrideValue) identifiers json) := by
  induction identifiers with
  | nil => exact fun json => not_throws_jsonReplace json overrideValue
  | cons identifier rest ih =>
    intro json throws
    rcases (throws_stepDown equals _ identifier json).mp throws with ⟨part, -, throwsThere⟩
    exact ih part throwsThere

lemma fits_replace (json : Json) : Fits equals (.replace overrideValue) identifiers json :=
  ⟨fun other => absurd rfl (other overrideValue), fun _ _ _ _ isAdd => nomatch isAdd⟩

lemma throws_add :
    ∀ json, Throws (findObjectAndAct equals (.add overrideValue) identifiers json) ↔
      ¬ Fits equals (.add overrideValue) identifiers json := by
  induction identifiers with
  | nil =>
    intro json
    refine iff_of_true ⟨_, rfl⟩ fun fits => ?_
    exact fits.identified nofun rfl
  | cons identifier rest ih =>
    intro json
    cases rest with
    | nil =>
      refine (throws_jsonAdd json identifier overrideValue).trans ?_
      constructor
      · rintro ⟨⟨value, rfl⟩, ⟨name, rfl⟩, refuses⟩ fits
        have takes := fits.member value [] name json rfl rfl rfl
        rw [refuses] at takes
        cases takes
      · intro misfit
        by_contra safe
        refine misfit ⟨fun _ => cons_ne_nil _ _, ?_⟩
        intro value path name target isAdd split followed
        cases path with
        | cons first path => simp at split
        | nil =>
          cases followed
          rw [nil_append, singleton_inj] at split
          by_contra refuses
          exact safe ⟨⟨value, Action.add.inj isAdd⟩, ⟨name, split⟩, Bool.not_eq_true _ ▸ refuses⟩
    | cons next more =>
      refine (throws_stepDown equals _ identifier json).trans ?_
      rw [fits_cons equals (cons_ne_nil next more)]
      simp only [ih, not_forall]
      constructor
      · rintro ⟨part, found, misfit⟩
        exact ⟨part, found, misfit⟩
      · rintro ⟨part, found, misfit⟩
        exact ⟨part, found, misfit⟩

end

lemma throws_clear (identifiers : List IndividualObjectIdentifier) :
    ∀ json, Throws (findObjectAndAct equals .clear identifiers json) ↔
      ¬ Fits equals .clear identifiers json := by
  have fits : identifiers ≠ [] -> ∀ json, Fits equals .clear identifiers json :=
    fun some_ json => ⟨fun _ => some_, fun _ _ _ _ isAdd => nomatch isAdd⟩
  induction identifiers with
  | nil =>
    intro json
    refine iff_of_true ⟨_, rfl⟩ fun fits => ?_
    exact fits.identified nofun rfl
  | cons identifier rest ih =>
    intro json
    refine iff_of_false ?_ (not_not.mpr (fits (cons_ne_nil _ _) json))
    cases rest with
    | nil => exact not_throws_jsonClear equals json identifier
    | cons next more =>
      intro throws
      rcases (throws_stepDown equals _ identifier json).mp throws with ⟨part, -, throwsThere⟩
      have fitsRest := fun (some_ : next :: more ≠ []) json =>
        (⟨fun _ => some_, fun _ _ _ _ isAdd => nomatch isAdd⟩ :
          Fits equals .clear (next :: more) json)
      exact (ih fitsRest part).mp throwsThere (fitsRest (cons_ne_nil _ _) part)

lemma throws_findObjectAndAct (action : Action) (identifiers : List IndividualObjectIdentifier)
    (json : Json) :
    Throws (findObjectAndAct equals action identifiers json) ↔
      ¬ Fits equals action identifiers json := by
  cases action with
  | replace overrideValue =>
    exact iff_of_false (not_throws_replace equals overrideValue identifiers json)
      (not_not.mpr (fits_replace equals overrideValue identifiers json))
  | add overrideValue => exact throws_add equals overrideValue identifiers json
  | clear => exact throws_clear equals identifiers json

end

/-- An override field never throws, and leaves the value if it fails, exactly if its action fits. -/
theorem resultUpdateHelper_safe_iff :
    ∀ (equals : Json -> Json -> Bool) (field : OverrideField) (json : Json),
      ((∀ what, (resultUpdateHelperInPlace equals field json).1 ≠ .error (.exception what)) ∧
          (∀ status,
            (resultUpdateHelperInPlace equals field json).1 = .error (.status status) ->
              (resultUpdateHelperInPlace equals field json).2 = json)) ↔
        ∀ action identifiers, field.action = some (action, identifiers) ->
          Fits equals action identifiers json := by
  intro equals field json
  have same := sameOutcome_resultUpdateHelper equals field json
  have restores := restores_resultUpdateHelperInPlace equals field json
  rw [and_iff_left fun status => restores (.status status), same]
  have throws : (∀ what,
      (resultUpdateHelper equals field json).map (fun _ => ()) ≠ .error (.exception what)) ↔
      ¬ Throws (resultUpdateHelper equals field json) := by
    rw [<- throws_map _ fun _ => (), Throws, not_exists]
  rw [throws, resultUpdateHelper]
  cases acts : field.action with
  | none => exact iff_of_true (not_throws_status _) nofun
  | some act =>
    rcases act with ⟨action, identifiers⟩
    rw [throws_findObjectAndAct, not_not]
    constructor
    · rintro fits _ _ ⟨⟩
      exact fits
    · exact fun fits => fits action identifiers rfl

/-- No two values are equal. -/
def neverEqual : Json -> Json -> Bool := fun _ _ => false

/-- A field is added to an array, and a field is cleared without identifiers. -/
theorem resultUpdateHelper_throws :
    (resultUpdateHelperInPlace neverEqual
        ⟨some (.add (.value (.stringValue (text "A"))),
          [.fieldName (text "Members"), .fieldName (text "Name")]), none⟩
        (.object [(text "Members", .array [])])).1 =
      .error (.exception (text "type_error.305")) ∧
    (resultUpdateHelperInPlace neverEqual ⟨some (.clear, []), none⟩ (.object [])).1 =
      .error (.exception (text "RepeatedPtrField::Get")) := by
  exact ⟨rfl, rfl⟩

end Ecclesia.Override
