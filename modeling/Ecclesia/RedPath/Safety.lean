import Ecclesia.RedPath.Selectors

namespace Ecclesia.RedPath

open Absl

/-!
# Which RedPaths are followed safely

A test asks every candidate for its payload, without a look at whether the candidate is an
object.  A query is safe exactly if only objects arrive at the filters that test something, and
if no nested test trips over a text.
-/

/-- The faults other than an access behind the pieces of a text. -/
def InPieces (fault : Fault) : Prop :=
  fault ≠ .pastPieces

section

variable {Object Iterable : Type} {service : Service Object Iterable} {lib : NumberLibrary}

variable {variant : RedfishVariant Object Iterable}

lemma content_none (noObject : variant.object = none) :
    content service variant = .error .nullObject := by
  rw [content, noObject]

lemma content_some {object : Object} (isObject : variant.object = some object) :
    content service variant = .ok (service.getContentAsJson object) := by
  rw [content, isObject]

variable {json : Json} {name : Text}

lemma atName_find {value : Json} (found : json.find name = some value) :
    atName json name = .ok value := by
  cases json with
  | object members =>
    rw [Json.find] at found
    rw [atName, found]
    rfl
  | _ => cases found

lemma contains_false (missing : json.find name = none) : json.contains name = false := by
  rw [Json.contains, missing]
  rfl

lemma contains_true {value : Json} (found : json.find name = some value) :
    json.contains name = true := by
  rw [Json.contains, found]
  rfl

lemma find_of_equalsText {piece : Text} (same : json.equalsText piece = true) :
    json.find name = none := by
  cases json with
  | object members => cases same
  | _ => rfl

variable {property : Text}

lemma numberCondition_ok {filterCondition : lib.Double -> Bool}
    (isJson : content service variant = .ok json) :
    numberCondition service lib filterCondition property variant =
      .ok (match json.find property with
        | some value =>
          match lib.simpleAtod (lib.dump value) with
          | some stored => filterCondition stored
          | none => false
        | none => false) := by
  rw [numberCondition, isJson]
  cases found : json.find property with
  | none =>
    change (if (!json.contains property) = true then _ else _) = _
    rw [contains_false found]
    rfl
  | some value =>
    change (if (!json.contains property) = true then _ else
      (atName json property).bind fun stored => match lib.simpleAtod (lib.dump stored) with
        | some number => Except.ok (filterCondition number)
        | none => Except.ok false) = _
    rw [contains_true found, atName_find found]
    change (match lib.simpleAtod (lib.dump value) with
      | some number => Except.ok (filterCondition number)
      | none => Except.ok false) = _
    dsimp only
    cases lib.simpleAtod (lib.dump value) with
    | none => rfl
    | some number => rfl

variable {symbol : Text}

lemma equalityCondition_ok {filterCondition : Json -> Bool}
    (isJson : content service variant = .ok json) :
    equalityCondition service filterCondition property symbol variant =
      .ok (match json.find property with
        | some value =>
          if symbol = text "!=" then !filterCondition value else filterCondition value
        | none => false) := by
  rw [equalityCondition, isJson]
  cases found : json.find property with
  | none =>
    change (if (!json.contains property) = true then _ else _) = _
    rw [contains_false found]
    rfl
  | some value =>
    change (if (!json.contains property) = true then _ else
      (atName json property).bind fun stored => Except.ok
        (if symbol = text "!=" then !filterCondition stored else filterCondition stored)) = _
    rw [contains_true found, atName_find found]
    rfl

lemma valueCondition_ok {operand : Text} (isJson : content service variant = .ok json) :
    valueCondition service lib symbol property operand variant =
      .ok ((Test.comparison symbol property operand).holdsOf lib json) := by
  rw [valueCondition, Test.holdsOf]
  cases isNumber : lib.simpleAtod operand with
  | some number =>
    refine (numberCondition_ok isJson).trans (congrArg Except.ok ?_)
    cases json.find property with
    | none => rfl
    | some value =>
      cases isStored : lib.simpleAtod (lib.dump value) with
      | none => simp only [valueHolds, isNumber, isStored]
      | some stored => simp only [valueHolds, isNumber, isStored]
  | none =>
    split
    · rename_i isBoolean
      refine (equalityCondition_ok isJson).trans (congrArg Except.ok ?_)
      cases json.find property with
      | none => rfl
      | some value => simp only [valueHolds, isNumber, if_pos isBoolean]
    · rename_i noBoolean
      split
      · rename_i isNull
        refine (equalityCondition_ok isJson).trans (congrArg Except.ok ?_)
        cases json.find property with
        | none => rfl
        | some value => simp only [valueHolds, isNumber, if_neg noBoolean, if_pos isNull]
      · rename_i noNull
        refine (equalityCondition_ok isJson).trans (congrArg Except.ok ?_)
        cases json.find property with
        | none => rfl
        | some value => simp only [valueHolds, isNumber, if_neg noBoolean, if_neg noNull]

lemma nestedLoop_cons (back piece : Text) (rest : List Text) (json : Json) :
    nestedLoop lib back (piece :: rest) json =
      if piece = back then
        match settled lib piece json with
        | some answer => .ok answer
        | none =>
          if (json.contains piece || json.equalsText piece) = true then
            nestedLoop lib back rest json
          else .ok false
      else if (json.contains piece || json.equalsText piece) = true then
        (atName json piece).bind (nestedLoop lib back rest)
      else .ok false := by
  have search : (if (!json.contains piece && !json.equalsText piece) = true then Except.ok false
      else if piece = back then nestedLoop lib back rest json
      else (atName json piece).bind (nestedLoop lib back rest)) =
      if (json.contains piece || json.equalsText piece) = true then
        if piece = back then nestedLoop lib back rest json
        else (atName json piece).bind (nestedLoop lib back rest)
      else .ok false := by
    cases json.contains piece <;> cases json.equalsText piece <;> rfl
  rw [nestedLoop.eq_def]
  dsimp only
  by_cases isBack : piece = back
  · rw [if_pos isBack] at search
    rw [if_pos isBack, if_pos isBack, if_pos isBack]
    cases json with
    | string value => exact search
    | array elements => exact search
    | object members => exact search
    | discarded => exact search
    | _ => rfl
  · rw [if_neg isBack] at search
    rw [if_neg isBack, if_neg isBack, if_neg isBack]
    exact search

lemma nestedLoop_decides (back : Text) (pieces : List Text) :
    Decides InPieces (nestedLoop lib back pieces) (Trips lib back pieces)
      (passes lib back pieces) := by
  induction pieces with
  | nil => exact ⟨fun json trips => trips.elim, fun json _ => rfl⟩
  | cons piece rest ih =>
    constructor
    · intro json trips
      rw [nestedLoop_cons]
      rw [Trips] at trips
      by_cases isBack : piece = back
      · rw [if_pos isBack] at trips ⊢
        rw [trips.1]
        rw [if_pos trips.2.1]
        exact ih.failing json trips.2.2
      · rw [if_neg isBack] at trips ⊢
        rcases trips with isText | ⟨child, found, later⟩
        · rw [isText]
          refine ⟨.typeError, ?_, Fault.noConfusion⟩
          cases json with
          | string value => rfl
          | _ => cases isText
        · rw [contains_true found, atName_find found]
          exact ih.failing child later
    · intro json fine
      rw [nestedLoop_cons, passes]
      rw [Trips] at fine
      by_cases isBack : piece = back
      · rw [if_pos isBack] at fine ⊢
        rw [if_pos isBack]
        cases answer : settled lib piece json with
        | some answer => rfl
        | none =>
          cases present : json.contains piece || json.equalsText piece with
          | false => rfl
          | true =>
            exact ih.answering json fun later => fine ⟨answer, present, later⟩
      · rw [if_neg isBack] at fine ⊢
        rw [if_neg isBack]
        have noText : json.equalsText piece = false :=
          Bool.eq_false_iff.mpr fun isText => fine (.inl isText)
        rw [noText]
        cases found : json.find piece with
        | none =>
          rw [contains_false found]
          rfl
        | some child =>
          rw [contains_true found, atName_find found]
          exact ih.answering child fun later => fine (.inr ⟨child, found, later⟩)

/-- The condition that the code applies for a test. -/
def Test.condition (service : Service Object Iterable) (lib : NumberLibrary) :
    Test -> RedfishVariant Object Iterable -> Except Fault Bool
  | .any => fun _ => .ok true
  | .comparison symbol property operand => valueCondition service lib symbol property operand
  | .nested pieces => nestedCondition service lib pieces
  | .presence property => presenceCondition service property

lemma valueCondition_none {operand : Text} (noObject : variant.object = none) :
    valueCondition service lib symbol property operand variant = .error .nullObject := by
  have number : ∀ filterCondition,
      numberCondition service lib filterCondition property variant = .error .nullObject := by
    intro filterCondition
    rw [numberCondition, content_none noObject]
    rfl
  have equality : ∀ filterCondition,
      equalityCondition service filterCondition property symbol variant = .error .nullObject := by
    intro filterCondition
    rw [equalityCondition, content_none noObject]
    rfl
  rw [valueCondition]
  cases lib.simpleAtod operand with
  | some value => exact number _
  | none =>
    split
    · exact equality _
    · split
      · exact equality _
      · exact equality _

lemma Test.decides (service : Service Object Iterable) (lib : NumberLibrary) (test : Test) :
    Decides InPieces (test.condition service lib) (test.Faults lib service)
      (test.holds lib service) := by
  constructor
  · intro candidate faults
    cases isObject : candidate.object with
    | none =>
      refine ⟨.nullObject, ?_, Fault.noConfusion⟩
      cases test with
      | any =>
        exact faults.elim
      | comparison symbol property operand => exact valueCondition_none isObject
      | nested pieces =>
        rw [Test.condition, nestedCondition, content_none isObject]
        rfl
      | presence property =>
        rw [Test.condition, presenceCondition, content_none isObject]
        rfl
    | some object =>
      cases test with
      | nested pieces =>
        simp only [Test.Faults, isObject] at faults
        rw [Test.condition, nestedCondition, content_some isObject]
        exact (nestedLoop_decides _ pieces).failing _ faults
      | _ =>
        simp only [Test.Faults, isObject, Test.TripsOver] at faults
  · intro candidate fine
    cases isObject : candidate.object with
    | none =>
      cases test with
      | any => rfl
      | _ => simp [Test.Faults, isObject] at fine
    | some object =>
      cases test with
      | any => rfl
      | comparison symbol property operand =>
        simp only [Test.holds, isObject]
        exact valueCondition_ok (content_some isObject)
      | nested pieces =>
        simp only [Test.Faults, isObject] at fine
        rw [Test.condition, nestedCondition, content_some isObject]
        simp only [Test.holds, isObject]
        exact (nestedLoop_decides _ pieces).answering _ fine
      | presence property =>
        rw [Test.condition, presenceCondition, content_some isObject]
        simp only [Test.holds, isObject]
        rfl

lemma applyFilter_appends (service : Service Object Iterable)
    {condition : RedfishVariant Object Iterable -> Except Fault Bool}
    {fails : RedfishVariant Object Iterable -> Prop}
    {holds : RedfishVariant Object Iterable -> Bool}
    (decides : Decides InPieces condition fails holds) :
    Appends InPieces (applyFilter service condition)
      (fun variant => ∃ candidate ∈ candidates service variant, fails candidate)
      (fun variant => (candidates service variant).filter holds) := by
  have loop := decides.appends.foldlM
  have eq : ∀ temp variant, applyFilter service condition temp variant =
      (candidates service variant).foldlM (keepIf condition) temp := by
    intro temp variant
    rw [applyFilter, candidates]
    cases variant.iterable with
    | some iterable => rfl
    | none =>
      change _ = (keepIf condition temp variant).bind Except.ok
      cases keepIf condition temp variant with
      | error fault => rfl
      | ok after => rfl
  constructor
  · intro temp variant failing
    rw [eq]
    exact loop.failing temp _ failing
  · intro temp variant fine
    rw [eq, <- flatMap_keep]
    exact loop.adding temp _ fine

/-- What the code does for the filter that it has read. -/
def Selector.apply (service : Service Object Iterable) (lib : NumberLibrary) (selector : Selector)
    (temp : List (RedfishVariant Object Iterable)) (variant : RedfishVariant Object Iterable) :
    Except Fault (List (RedfishVariant Object Iterable)) :=
  match selector with
  | .passing test => applyFilter service (test.condition service lib) temp variant
  | selector => .ok (temp ++ selector.select lib service variant)

lemma filterVariant_eq (path subpathContent : Text)
    (temp : List (RedfishVariant Object Iterable)) (passed : RedfishVariant Object Iterable) :
    filterVariant service lib path subpathContent temp passed =
      (readSelector subpathContent).apply service lib temp (service.indexName passed path) := by
  rw [filterVariant, readSelector]
  split
  · rfl
  · split
    · rfl
    · split
      · cases members : (service.indexName passed path).iterable with
        | some iterable => simp only [Selector.apply, Selector.select, members]
        | none => simp only [Selector.apply, Selector.select, members, List.append_nil]
      · cases simpleAtoi64 subpathContent with
        | some num => rfl
        | none =>
          cases matched : matchComparison subpathContent with
          | some found =>
            rcases found with ⟨property, symbol, operand⟩
            dsimp only
            rw [filterOnPropertyWithValue, strSplitByText_matchComparison matched]
            rfl
          | none =>
            dsimp only
            split
            · rfl
            · split
              · rfl
              · exact congrArg Except.ok (List.append_nil temp).symm

lemma filterVariant_appends (service : Service Object Iterable) (lib : NumberLibrary)
    (path subpathContent : Text) :
    Appends InPieces (filterVariant service lib path subpathContent)
      (fun passed => (readSelector subpathContent).Faults lib service
        (service.indexName passed path))
      (fun passed => (readSelector subpathContent).select lib service
        (service.indexName passed path)) := by
  constructor
  · intro temp passed faults
    rw [filterVariant_eq]
    cases isSelector : readSelector subpathContent with
    | passing test =>
      rw [isSelector] at faults
      exact (applyFilter_appends service (test.decides service lib)).failing temp _ faults
    | _ =>
      rw [isSelector] at faults
      exact faults.elim
  · intro temp passed fine
    rw [filterVariant_eq]
    cases isSelector : readSelector subpathContent with
    | passing test =>
      rw [isSelector] at fine
      exact (applyFilter_appends service (test.decides service lib)).adding temp _ fine
    | _ => rfl

/-- The parts of a RedPath up to the first that is not well formed: names with the contents of
their filters. -/
def readElements : List Text -> List (Text × Text)
  | [] => []
  | elem :: rest =>
    if elem.isEmpty then readElements rest
    else
      match matchRedPath elem with
      | none => []
      | some part => part :: readElements rest

/-- From a variant on, every filter that tests something gets objects only, over which it does
not trip. -/
def SafeFrom (service : Service Object Iterable) (lib : NumberLibrary) :
    List (Text × Text) -> RedfishVariant Object Iterable -> Prop
  | [], _ => True
  | (path, subpathContent) :: rest, passed =>
    ¬ (readSelector subpathContent).Faults lib service (service.indexName passed path) ∧
      ∀ next ∈ (readSelector subpathContent).select lib service
        (service.indexName passed path), SafeFrom service lib rest next

lemma followElements_cons {elem : Text} {rest : List Text} {path subpathContent : Text}
    (present : elem.isEmpty = false) (matched : matchRedPath elem = some (path, subpathContent))
    {passed : List (RedfishVariant Object Iterable)} (some : passed.isEmpty = false) :
    followElements service lib (elem :: rest) passed =
      (passed.foldlM (filterVariant service lib path subpathContent) []).bind
        (followElements service lib rest) := by
  rw [followElements, present, matched]
  rw [some]
  rfl

lemma followElements_ends (service : Service Object Iterable) (lib : NumberLibrary)
    (elems : List Text) :
    ∀ passed : List (RedfishVariant Object Iterable),
      ((∀ variant ∈ passed, SafeFrom service lib (readElements elems) variant) ->
        ∃ after, followElements service lib elems passed = .ok after) ∧
      ((∃ variant ∈ passed, ¬ SafeFrom service lib (readElements elems) variant) ->
        FailsWith InPieces (followElements service lib elems passed)) := by
  induction elems with
  | nil =>
    intro passed
    exact ⟨fun _ => ⟨passed, rfl⟩, fun ⟨variant, _, unsafeFrom⟩ => absurd trivial unsafeFrom⟩
  | cons elem rest ih =>
    intro passed
    cases present : elem.isEmpty with
    | true =>
      rw [readElements, followElements, present]
      exact ih passed
    | false =>
      cases matched : matchRedPath elem with
      | none =>
        rw [readElements, followElements, present, matched]
        exact ⟨fun _ => ⟨[], rfl⟩, fun ⟨variant, _, unsafeFrom⟩ => absurd trivial unsafeFrom⟩
      | some part =>
        rcases part with ⟨path, subpathContent⟩
        cases arrived : passed.isEmpty with
        | true =>
          rw [List.isEmpty_iff] at arrived
          rw [followElements, present, matched, arrived]
          exact ⟨fun _ => ⟨[], rfl⟩, fun ⟨variant, member, _⟩ => by cases member⟩
        | false =>
          have round := (filterVariant_appends service lib path subpathContent).foldlM
          have parts : readElements (elem :: rest) =
              (path, subpathContent) :: readElements rest := by
            rw [readElements, present, matched]
            rfl
          rw [followElements_cons present matched arrived, parts]
          by_cases faults : ∃ variant ∈ passed,
              (readSelector subpathContent).Faults lib service (service.indexName variant path)
          · rcases round.failing [] passed faults with ⟨fault, failed, inPieces⟩
            rw [failed]
            constructor
            · intro safe
              rcases faults with ⟨variant, member, fault⟩
              exact absurd fault (safe variant member).1
            · exact fun _ => ⟨fault, rfl, inPieces⟩
          · rw [round.adding [] passed faults]
            have later := ih ([] ++ passed.flatMap fun variant =>
              (readSelector subpathContent).select lib service (service.indexName variant path))
            constructor
            · intro safe
              apply later.1
              intro next member
              rcases List.mem_flatMap.mp member with ⟨variant, passing, selected⟩
              exact (safe variant passing).2 next selected
            · rintro ⟨variant, passing, notSafe⟩
              apply later.2
              rw [SafeFrom, not_and] at notSafe
              have stuck := notSafe fun fault => faults ⟨variant, passing, fault⟩
              push Not at stuck
              rcases stuck with ⟨next, selected, notSafe⟩
              exact ⟨next, List.mem_flatMap.mpr ⟨variant, passing, selected⟩, notSafe⟩

variable {State : Type} {resultCallback : Object -> State -> RedfishIterReturnValue × State}

/-- The query runs the callback on what is left, if there was no fault. -/
lemma getRedPath_eq {redpath : Text} (present : redpath.isEmpty = false) (state : State) :
    getRedPath service lib redpath resultCallback state =
      (followElements service lib (strSplit '/' redpath) [service.getRoot {} .redfish]).map
        fun passed => (visitUntil (callWithObject resultCallback) passed state).2 := by
  rw [getRedPath, present]
  dsimp only
  cases followElements service lib (strSplit '/' redpath) [service.getRoot {} .redfish] with
  | error fault => rfl
  | ok passed => rfl

/-- A query ends exactly if only objects arrive at filters, and no nested test trips over a text. -/
theorem getRedPath_safe_iff (service : Service Object Iterable) (lib : NumberLibrary)
    (redpath : Text) (resultCallback : Object -> State -> RedfishIterReturnValue × State)
    (state : State) :
    (∃ after, getRedPath service lib redpath resultCallback state = .ok after) <->
      SafeFrom service lib (readElements (strSplit '/' redpath)) (service.getRoot {} .redfish) := by
  cases present : redpath.isEmpty with
  | true =>
    rw [List.isEmpty_iff] at present
    subst present
    exact ⟨fun _ => trivial, fun _ => ⟨state, rfl⟩⟩
  | false =>
    have ends := followElements_ends service lib (strSplit '/' redpath)
      [service.getRoot {} .redfish]
    rw [getRedPath_eq present]
    constructor
    · intro ended
      by_contra notSafe
      rcases ends.2 ⟨_, List.mem_singleton_self _, notSafe⟩ with ⟨fault, failed, inPieces⟩
      rcases ended with ⟨after, ended⟩
      rw [failed] at ended
      cases ended
    · intro safe
      have all : ∀ variant ∈ [service.getRoot {} .redfish],
          SafeFrom service lib (readElements (strSplit '/' redpath)) variant := by
        intro variant member
        rw [List.mem_singleton.mp member]
        exact safe
      rcases ends.1 all with ⟨passed, ended⟩
      exact ⟨_, by rw [ended]; rfl⟩

end

/-- A library of integers in decimal notation, which agrees with the real one on these. -/
def integerNumbers : NumberLibrary where
  Double := Int
  double := ⟨fun l r => decide (l < r), fun l r => decide (l <= r), fun l r => decide (l = r)⟩
  simpleAtod := simpleAtoi32
  dump
    | .null => text "null"
    | .boolean value => if value then text "true" else text "false"
    | .integer value => strCatInt value
    | .unsigned value => strCatNat value
    | _ => []

/-- A service root without any resource behind it: every fetch fails. -/
def bareRoot : Service Unit Unit where
  getRoot _ _ := .ofObject ()
  property _ _ := .ofStatus (.notFound [])
  get _ _ _ := .ofStatus (.notFound [])
  getUriString _ := none
  size _ := 0
  element _ _ := .ofStatus (.notFound [])
  getContentAsJson _ := .object []

/-- A filter on the name of a resource that is not there. -/
theorem getRedPath_failed_fetch :
    getRedPath bareRoot integerNumbers (text "/Chassis[Name=x]")
      (fun _ (state : Unit) => (.proceed, state)) () = .error .nullObject := rfl

end Ecclesia.RedPath
