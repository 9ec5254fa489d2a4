import Ecclesia.Override.Policy

namespace Ecclesia.Override

open Json List

/-!
# Overrides in place

An override field acts on a part of a value in place: the code goes down through references
into the value and changes the part that it comes to.  Here every function returns its outcome
together with the value as it leaves it, also when it fails.  The definitions follow the same
functions of `transport_with_override.cc` as those that return a changed value.
-/

/-- A function that changes a value in place. -/
abbrev InPlace := Json -> Except Failure Unit × Json

def setFirst (name : Text) (value : Json) : List (Text × Json) -> List (Text × Json)
  | [] => []
  | (other, current) :: rest =>
    if name == other then (other, value) :: rest else (other, current) :: setFirst name value rest

/-- A value whose member has been changed through a reference. -/
def setFound (json : Json) (name : Text) (value : Json) : Json :=
  match json with
  | .object members => .object (setFirst name value members)
  | _ => json

/-- Return an error of the arguments. -/
def refuse (message : Text) : InPlace :=
  fun json => (.error (.status (.invalidArgument message)), json)

variable (identifier : IndividualObjectIdentifier) (overrideValue : OverrideValue)

def jsonReplaceInPlace : InPlace := fun json =>
  match overrideValue with
  | .value value =>
    if json.type ≠ (valueToJson value).type then
      refuse (text "Value type is different from original type") json
    else (.ok (), valueToJson value)
  | .overrideByReading =>
    (.error (.status ⟨.unimplemented, text "To be implemented"⟩), json)
  | .notSet => refuse (text "Replace Json not found.") json

def jsonAddValueInPlace (addJson : Json) : InPlace :=
  fun json =>
    match identifier with
    | .fieldName name =>
      match json.find name with
      | some (.array elements) => (.ok (), setFound json name (.array (elements ++ [addJson])))
      | some _ => refuse (text "Json field already exist.") json
      | none =>
        match json.assign name addJson with
        | .ok changed => (.ok (), changed)
        | .error failure => (.error failure, json)
    | .arrayField _ _ =>
      refuse (text "Please specify a field before adding inside an array type json") json
    | .arrayIdx index =>
      match json with
      | .array elements =>
        if index < 0 then refuse (text "index is out of array range") json
        else
          match elements[index.toNat]? with
          | none => refuse (text "index is out of array range") json
          | some (.array inner) =>
            (.ok (), .array (elements.set index.toNat (.array (inner ++ [addJson]))))
          | some _ =>
            refuse (text "Please specify a field before adding inside an array type json") json
      | _ => refuse (text "Json is not an array type") json
    | .notSet => refuse (text "Added Json not found.") json

def jsonAddInPlace : InPlace := fun json =>
  match overrideValue with
  | .value value => jsonAddValueInPlace identifier (valueToJson value) json
  | .overrideByReading =>
    (.error (.status ⟨.unimplemented, text "To be implemented"⟩), json)
  | .notSet => refuse (text "Added Json not found.") json

section

variable (equals : Json -> Json -> Bool)

def jsonClearInPlace (identifier : IndividualObjectIdentifier) : InPlace := fun json =>
  match identifier with
  | .fieldName name =>
    match json with
    | .object members =>
      match members.lookup name with
      | none => (.error (.status (.notFound (text "Cleared Json field not found."))), json)
      | some _ => (.ok (), json.eraseMember name)
    | _ => refuse (text "Json is not an object type") json
  | .arrayField fieldName value =>
    match json with
    | .array elements =>
      match elements.findIdx? (hasField equals fieldName value) with
      | some index => (.ok (), .array (elements.eraseIdx index))
      | none => refuse (text "Cleared Json not found.") json
    | _ => refuse (text "Json is not an array type") json
  | .arrayIdx index =>
    match json with
    | .array elements =>
      if index < 0 ∨ elements.length <= index.toNat then
        refuse (text "index is out of array range") json
      else (.ok (), .array (elements.eraseIdx index.toNat))
    | _ => refuse (text "Json is not an array type") json
  | .notSet => refuse (text "Cleared Json not found.") json

/-- Act on a part of a value, which holds what the action leaves of the part. -/
def through (act : InPlace) (part : Json) (put : Json -> Json) : Except Failure Unit × Json :=
  ((act part).1, put (act part).2)

/-- Act on the part of a value that an identifier leads to. -/
def stepDownInPlace (act : InPlace) (identifier : IndividualObjectIdentifier) : InPlace :=
  fun json =>
    match identifier with
    | .fieldName name =>
      match json.find name with
      | some found => through act found (setFound json name)
      | none => refuse (text "Required Json not found.") json
    | .arrayField fieldName value =>
      match json with
      | .array elements =>
        match elements.findIdx? (hasField equals fieldName value) with
        | some index =>
          through act (elements.getD index .null) fun left => .array (elements.set index left)
        | none => refuse (text "Required Json not found.") json
      | _ => refuse (text "Json is not an array type") json
    | .arrayIdx index =>
      match json with
      | .array elements =>
        if index < 0 then refuse (text "index is out of array range") json
        else
          match elements[index.toNat]? with
          | none => refuse (text "index is out of array range") json
          | some found =>
            through act found fun left => .array (elements.set index.toNat left)
      | _ => refuse (text "Json is not an array type") json
    | .notSet => refuse (text "Required Json not found.") json

/-- `FindObjectAndAct` on the identifiers from an index on. -/
def findObjectAndActInPlace (action : Action) : List IndividualObjectIdentifier -> InPlace
  | [] => fun json =>
    match action with
    | .replace overrideValue => jsonReplaceInPlace overrideValue json
    | _ => (.error (.exception (text "RepeatedPtrField::Get")), json)
  | identifier :: rest => fun json =>
    match action, rest with
    | .add overrideValue, [] => jsonAddInPlace identifier overrideValue json
    | .clear, [] => jsonClearInPlace equals identifier json
    | _, _ => stepDownInPlace equals (findObjectAndActInPlace action rest) identifier json

def resultUpdateHelperInPlace (field : OverrideField) : InPlace := fun json =>
  match field.action with
  | some (action, identifiers) => findObjectAndActInPlace equals action identifiers json
  | none => refuse (text "No action specified") json

end

/-- An action in place does what the same action does that returns the changed value, and leaves the
value where that fails. -/
inductive Follows (json : Json) : Except Failure Unit × Json -> Evaluation Json -> Prop where
  | ok {left changed : Json} : Follows json (.ok (), left) (.ok changed)
  | error {failure : Failure} : Follows json (.error failure, json) (.error failure)

lemma follows_jsonReplace (json : Json) :
    Follows json (jsonReplaceInPlace overrideValue json) (jsonReplace json overrideValue) := by
  unfold jsonReplaceInPlace jsonReplace
  cases overrideValue with
  | value value =>
    simp only
    split_ifs
    · exact .error
    · exact .ok
  | overrideByReading => exact .error
  | notSet => exact .error

lemma follows_jsonAdd (json : Json) :
    Follows json (jsonAddInPlace identifier overrideValue json)
      (jsonAdd json identifier overrideValue) := by
  unfold jsonAddInPlace jsonAdd
  cases overrideValue with
  | value value =>
    simp only [jsonAddValueInPlace, jsonAddValue]
    cases identifier with
    | fieldName name =>
      simp only
      cases json.find name with
      | none =>
        cases json.assign name (valueToJson value) with
        | ok changed => exact .ok
        | error failure => exact .error
      | some found =>
        cases found with
        | array elements => exact .ok
        | _ => exact .error
    | arrayField fieldName value => exact .error
    | arrayIdx index =>
      cases json with
      | array elements =>
        simp only
        split_ifs
        · exact .error
        · cases elements[index.toNat]? with
          | none => exact .error
          | some found =>
            cases found with
            | array inner => exact .ok
            | _ => exact .error
      | _ => exact .error
    | notSet => exact .error
  | overrideByReading => exact .error
  | notSet => exact .error

variable (equals : Json -> Json -> Bool)

lemma follows_jsonClear (json : Json) :
    Follows json (jsonClearInPlace equals identifier json) (jsonClear equals json identifier) := by
  unfold jsonClearInPlace jsonClear
  cases identifier with
  | fieldName name =>
    cases json with
    | object members =>
      simp only
      cases members.lookup name with
      | none => exact .error
      | some found => exact .ok
    | _ => exact .error
  | arrayField fieldName value =>
    cases json with
    | array elements =>
      simp only
      cases elements.findIdx? (hasField equals fieldName value) with
      | none => exact .error
      | some index => exact .ok
    | _ => exact .error
  | arrayIdx index =>
    cases json with
    | array elements =>
      simp only
      split_ifs
      · exact .error
      · exact .ok
    | _ => exact .error
  | notSet => exact .error

variable {act : InPlace} {other : Json -> Evaluation Json}

lemma follows_through {part json : Json} (follows : Follows part (act part) (other part))
    {put : Json -> Json} (puts : put part = json) (putOther : Json -> Json) :
    Follows json (through act part put) ((other part).map putOther) := by
  unfold through
  generalize act part = acted at follows ⊢
  generalize other part = evaluated at follows ⊢
  cases follows with
  | ok => exact .ok
  | error =>
    simp only [puts]
    exact .error

lemma setFirst_lookup {name : Text} {value : Json} {members : List (Text × Json)}
    (found : members.lookup name = some value) : setFirst name value members = members := by
  induction members with
  | nil => cases found
  | cons member rest ih =>
    rcases member with ⟨other, current⟩
    rw [lookup_cons] at found
    rw [setFirst]
    cases same : name == other with
    | true =>
      rw [same] at found
      cases found
      rfl
    | false =>
      rw [same] at found
      rw [if_neg Bool.false_ne_true, ih found]

lemma setFound_find {json : Json} {name : Text} {value : Json}
    (found : json.find name = some value) : setFound json name value = json := by
  cases json with
  | object members => exact congrArg Json.object (setFirst_lookup found)
  | _ => rfl

lemma set_of_getElem? {elements : List Json} {index : Nat} {value : Json}
    (found : elements[index]? = some value) : elements.set index value = elements := by
  rcases List.getElem?_eq_some_iff.mp found with ⟨bound, rfl⟩
  exact set_getElem_self bound

lemma set_getD_self {elements : List Json} (index : Nat) :
    elements.set index (elements.getD index .null) = elements := by
  by_cases bound : index < elements.length
  · rw [getD_eq_getElem?_getD, getElem?_eq_getElem bound]
    exact set_getElem_self bound
  · exact set_eq_of_length_le (Nat.le_of_not_lt bound)

lemma follows_stepDown (follows : ∀ part, Follows part (act part) (other part)) (json : Json) :
    Follows json (stepDownInPlace equals act identifier json)
      (stepDown equals other identifier json) := by
  unfold stepDownInPlace stepDown
  cases identifier with
  | fieldName name =>
    simp only
    cases found : json.find name with
    | none => exact .error
    | some value => exact follows_through (follows value) (setFound_find found) _
  | arrayField fieldName value =>
    cases json with
    | array elements =>
      simp only
      cases elements.findIdx? (hasField equals fieldName value) with
      | none => exact .error
      | some index =>
        exact follows_through (follows _) (congrArg Json.array (set_getD_self index)) _
    | _ => exact .error
  | arrayIdx index =>
    cases json with
    | array elements =>
      simp only
      split_ifs
      · exact .error
      · cases found : elements[index.toNat]? with
        | none => exact .error
        | some value =>
          exact follows_through (follows value) (congrArg Json.array (set_of_getElem? found)) _
    | _ => exact .error
  | notSet => exact .error

lemma follows_findObjectAndAct (action : Action)
    (identifiers : List IndividualObjectIdentifier) (json : Json) :
    Follows json (findObjectAndActInPlace equals action identifiers json)
      (findObjectAndAct equals action identifiers json) := by
  induction identifiers generalizing json with
  | nil =>
    cases action with
    | replace overrideValue => exact follows_jsonReplace overrideValue json
    | add overrideValue => exact .error
    | clear => exact .error
  | cons identifier rest ih =>
    have deeper := follows_stepDown identifier equals ih json
    cases action with
    | replace overrideValue => exact deeper
    | add overrideValue =>
      cases rest with
      | nil => exact follows_jsonAdd identifier overrideValue json
      | cons next more => exact deeper
    | clear =>
      cases rest with
      | nil => exact follows_jsonClear identifier equals json
      | cons next more => exact deeper

lemma follows_resultUpdateHelper (field : OverrideField) (json : Json) :
    Follows json (resultUpdateHelperInPlace equals field json)
      (resultUpdateHelper equals field json) := by
  unfold resultUpdateHelperInPlace resultUpdateHelper
  cases field.action with
  | none => exact .error
  | some act => exact follows_findObjectAndAct equals act.1 act.2 json

/-- The value is left as it is if there is an error. -/
def Restores (act : InPlace) : Prop :=
  ∀ json failure, (act json).1 = .error failure -> (act json).2 = json

/-- A field that fails leaves the value as it is. -/
lemma restores_resultUpdateHelperInPlace (field : OverrideField) :
    Restores (resultUpdateHelperInPlace equals field) := by
  intro json failure failed
  have follows := follows_resultUpdateHelper equals field json
  generalize resultUpdateHelperInPlace equals field json = acted at follows failed ⊢
  generalize resultUpdateHelper equals field json = evaluated at follows
  cases follows with
  | ok => cases failed
  | error => rfl

/-- An action in place has the outcome of one that returns the changed value. -/
def SameOutcome (act : InPlace) (other : Json -> Evaluation Json) : Prop :=
  ∀ json, (act json).1 = (other json).map fun _ => ()

lemma sameOutcome_resultUpdateHelper (field : OverrideField) :
    SameOutcome (resultUpdateHelperInPlace equals field) (resultUpdateHelper equals field) := by
  intro json
  have follows := follows_resultUpdateHelper equals field json
  generalize resultUpdateHelperInPlace equals field json = acted at follows ⊢
  generalize resultUpdateHelper equals field json = evaluated at follows ⊢
  cases follows with
  | ok => rfl
  | error => rfl

end Ecclesia.Override
