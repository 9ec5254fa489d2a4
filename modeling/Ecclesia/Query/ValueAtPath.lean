import Mathlib.Data.List.TakeWhile
import Ecclesia.Json.PathUtil
import Ecclesia.Query.Location

namespace Ecclesia.Query

open Absl List

/-!
# Values at paths

A path such as `query.subquery[2].Name` names a value inside a query result.  One walker
gets the value at a path and removes it.  The definitions follow the `path_util.cc` of query
results; a pointer into a result is the location it points to.

The texts of doubles and of times belong to other libraries and are parameters.
-/

inductive Operation where
  | get
  | remove
deriving DecidableEq

/-- The texts of values that other libraries make. -/
structure ValueFormats where
  /-- `absl::StrCat` of a double -/
  double : Rat -> Text
  /-- `absl::FormatTime` of the seconds and nanoseconds of a time stamp -/
  time : Int -> Int -> Text

def splitPath (path : Text) : List Text :=
  if path.isEmpty then [] else PathUtil.splitSegments path []

def splitBracket (part : Text) : List Text :=
  match part.span (fun c => c != '[') with
  | (_, []) => [part]
  | (front, bracketed) => [front, bracketed]

section

variable (formats : ValueFormats)

def identifierTexts (identifier : Identifier) : List Text :=
  (identifier.localDevpath.map fun devpath => text "_local_devpath_:" ++ devpath).toList ++
    (identifier.machineDevpath.map fun devpath => text "_machine_devpath_:" ++ devpath).toList

def queryValueToString : QueryValue -> StatusOr Text
  | .string value => .ok value
  | .int value => .ok (strCatInt value)
  | .double value => .ok (formats.double value)
  | .timestamp seconds nanos => .ok (formats.time seconds nanos)
  | .bool value => .ok (if value then text "true" else text "false")
  | .identifier identifier =>
    match identifierTexts identifier with
    | [] => .error (.invalidArgument (text "Identifier is empty"))
    | texts => .ok (text "\x7b" ++ strJoin texts (text ",") ++ text "\x7d")
  | _ => .error (.invalidArgument (text "QueryValue is not a supported type"))

def compareListIdentifier (value : QueryValue) (identifier : List (Text × Text)) : Bool :=
  identifier.all fun (key, expected) =>
    match value.mutableSubquery.lookup key with
    | none => false
    | some field =>
      match queryValueToString formats field with
      | .ok found => found == expected
      | .error _ => false

/-- The parts of `[key=value;key=value]`. -/
def identifierParts (subqueryId identifierSet : Text) : Evaluation (List (Text × Text)) :=
  (strSplit ';' identifierSet).mapM fun identifier =>
    match strSplit '=' identifier with
    | [key, value] => .ok (key, value)
    | _ => .invalidArgument (text "Identifier '" ++ subqueryId ++ text "' is not valid")

/-- What a step comes to: a pointer to a part of the value, or no pointer but the value without
this part. -/
inductive Next where
  | pointer (selector : Selector)
  | removed (value : QueryValue)

/-- The value without one of its parts.  The elements behind an element move up. -/
def erasePart : Selector -> QueryValue -> QueryValue
  | .field name, .subquery fields => .subquery (fields.filter fun entry => entry.1 != name)
  | .element index, .list values => .list (values.eraseIdx index)
  | _, value => value

/-- What is done with the part that a step has found. -/
def actOn (value : QueryValue) (selector : Selector) : Operation -> Next
  | .remove => .removed (erasePart selector value)
  | .get => .pointer selector

/-- `ProcessNextMutableQueryValue`; to read the first character of an empty part is not defined. -/
def processNextMutableQueryValue (value : QueryValue) (subqueryId : Text)
    (operation : Operation) : Evaluation Next :=
  match value with
  | .subquery fields =>
    if (fields.lookup subqueryId).isSome then
      .ok (actOn value (.field subqueryId) operation)
    else .error (.status (.notFound (text "Subquery ID '" ++ subqueryId ++ text "' doesn't exist")))
  | .list values =>
    if subqueryId.isEmpty then .error (.exception (text "front() of an empty string_view"))
    else if startsWith subqueryId (text "[") && endsWith subqueryId (text "]") then
      let identifierSet := (subqueryId.drop 1).dropLast
      if strContains identifierSet (text "=") then do
        let parts <- identifierParts subqueryId identifierSet
        match values.findIdx? fun element => compareListIdentifier formats element parts with
        | some index => .ok (actOn value (.element index) operation)
        | none => .error (.status (.notFound
            (text "Identifier '" ++ subqueryId ++ text "' doesn't exist")))
      else
        match simpleAtoi32 identifierSet with
        | none => .invalidArgument
            (text "The list index is not valid, expected a valid integer: " ++ subqueryId)
        | some index =>
          if index < 0 ∨ (values.length : Int) <= index then .error (.status (.notFound
            (text "The list index is out of bounds: " ++ subqueryId)))
          else .ok (actOn value (.element index.toNat) operation)
    else .error (.status (.notFound (text "Path '" ++ subqueryId ++ text "' doesn't exist")))
  | _ => .invalidArgument (text "Value is not a subquery or list")

/-- The loop over the parts of a path, with the current value. It removes at the last part only. -/
def walkParts (operation : Operation) :
    List Text -> Location -> QueryResultData -> Evaluation (Option Location) × QueryResultData
  | [], location, data => (.ok (some location), data)
  | part :: rest, location, data =>
    match (QueryValue.subquery data).at? location with
    | none => (.error (.exception (text "null pointer")), data)
    | some value =>
      match processNextMutableQueryValue formats value part
          (if operation = .remove ∧ rest = [] then .remove else .get) with
      | .error failure => (.error failure, data)
      | .ok (.pointer selector) => walkParts operation rest (location ++ [selector]) data
      | .ok (.removed changed) =>
        (.ok none, ((QueryValue.subquery data).modify (fun _ => changed) location).mutableSubquery)

def processQueryValueFromResult (result : QueryResult) (path : Text) (operation : Operation) :
    Evaluation (Option Location) × QueryResult :=
  match splitPath path with
  | [] => (.invalidArgument (text "Path is empty."), result)
  | queryId :: subqueryIds =>
    if queryId ≠ result.queryId then
      (.invalidArgument (text "Query ID does not match: " ++ queryId ++ text " vs " ++
        result.queryId), result)
    else
      match subqueryIds.flatMap splitBracket with
      | [] => (.invalidArgument (text "Path is not a subquery: " ++ path), result)
      | subqueryId :: rest =>
        if result.data.isEmpty then
          (.invalidArgument (text "Query result has no data."), result)
        else if (result.data.lookup subqueryId).isSome then
          let walked := walkParts formats operation rest [.field subqueryId] result.data
          (walked.1, { result with data := walked.2 })
        else (.error (.status (.notFound
          (text "Subquery ID '" ++ subqueryId ++ text "' doesn't exist"))), result)

def getMutableQueryValueFromResult (result : QueryResult) (path : Text) :
    Evaluation (Option Location) :=
  (processQueryValueFromResult formats result path .get).1

def getQueryValueFromResult (result : QueryResult) (path : Text) : Evaluation QueryValue := do
  let location <- getMutableQueryValueFromResult formats result path
  match location.bind (QueryValue.subquery result.data).at? with
  | some value => .ok value
  | none => .error (.exception (text "null pointer"))

def removeQueryValueFromResult (result : QueryResult) (path : Text) :
    Evaluation Unit × QueryResult :=
  let processed := processQueryValueFromResult formats result path .remove
  (processed.1.map fun _ => (), processed.2)

lemma processNextMutableQueryValue_finds (value : QueryValue) (part : Text) :
    (∃ failure, ∀ operation,
        processNextMutableQueryValue formats value part operation = .error failure) ∨
      ∃ selector found, value.part? selector = some found ∧ ∀ operation,
        processNextMutableQueryValue formats value part operation =
          .ok (actOn value selector operation) := by
  unfold processNextMutableQueryValue
  cases value with
  | subquery fields =>
    dsimp only
    cases looked : fields.lookup part with
    | none => exact .inl ⟨_, fun _ => rfl⟩
    | some found => exact .inr ⟨.field part, found, looked, fun _ => rfl⟩
  | list values =>
    dsimp only
    split
    · exact .inl ⟨_, fun _ => rfl⟩
    · split
      · split
        · cases identifierParts part (part.drop 1).dropLast with
          | error failure => exact .inl ⟨failure, fun _ => rfl⟩
          | ok parts =>
            dsimp only [bind, Except.bind]
            cases position : values.findIdx? fun element =>
                compareListIdentifier formats element parts with
            | none => exact .inl ⟨_, fun _ => rfl⟩
            | some index =>
              have bound := (findIdx?_eq_some_iff_getElem.mp position).1
              exact .inr ⟨.element index, values[index], getElem?_eq_getElem bound, fun _ => rfl⟩
        · cases simpleAtoi32 (part.drop 1).dropLast with
          | none => exact .inl ⟨_, fun _ => rfl⟩
          | some index =>
            dsimp only
            split
            · exact .inl ⟨_, fun _ => rfl⟩
            · have bound : index.toNat < values.length := by omega
              exact .inr ⟨.element index.toNat, values[index.toNat],
                getElem?_eq_getElem bound, fun _ => rfl⟩
      · exact .inl ⟨_, fun _ => rfl⟩
  | _ => exact .inl ⟨_, fun _ => rfl⟩

/-- The data without the value at a location that ends with the selector. -/
def dataWithout (parent : Location) (selector : Selector) (data : QueryResultData) :
    QueryResultData :=
  ((QueryValue.subquery data).modify (erasePart selector) parent).mutableSubquery

lemma lookup_dataWithout (name : Text) (data : QueryResultData) :
    (dataWithout [] (.field name) data).lookup name = none := by
  rw [lookup_eq_none_iff]
  intro entry member
  rw [bne_comm]
  exact (mem_filter.mp member).2

lemma walkParts_agree (parts : List Text) (data : QueryResultData) (more : parts ≠ []) :
    ∀ location value, (QueryValue.subquery data).at? location = some value ->
      (∃ failure, ∀ operation,
          walkParts formats operation parts location data = (.error failure, data)) ∨
        ∃ parent selector found,
          (QueryValue.subquery data).at? (parent ++ [selector]) = some found ∧
          walkParts formats .get parts location data = (.ok (some (parent ++ [selector])), data) ∧
          walkParts formats .remove parts location data =
            (.ok none, dataWithout parent selector data) := by
  induction parts with
  | nil => exact absurd rfl more
  | cons part rest ih =>
    intro location value found
    rcases processNextMutableQueryValue_finds formats value part with
      ⟨failure, fails⟩ | ⟨selector, child, isPart, finds⟩
    · refine .inl ⟨failure, fun operation => ?_⟩
      rw [walkParts, found]
      dsimp only
      rw [fails]
    · have below : (QueryValue.subquery data).at? (location ++ [selector]) = some child := by
        rw [QueryValue.at?_append, found, Option.bind_some, QueryValue.at?_cons, isPart,
          Option.bind_some, QueryValue.at?_nil]
      have got : walkParts formats .get (part :: rest) location data =
          walkParts formats .get rest (location ++ [selector]) data := by
        rw [walkParts, found]
        dsimp only
        rw [finds]
        rfl
      cases rest with
      | nil =>
        refine .inr ⟨location, selector, child, below, got, ?_⟩
        rw [walkParts, found]
        dsimp only
        rw [finds, if_pos ⟨rfl, rfl⟩]
        dsimp only [actOn]
        rw [QueryValue.modify_const found (erasePart selector)]
        rfl
      | cons next others =>
        have removed : walkParts formats .remove (part :: next :: others) location data =
            walkParts formats .remove (next :: others) (location ++ [selector]) data := by
          rw [walkParts, found]
          dsimp only
          rw [finds]
          rfl
        rcases ih (cons_ne_nil _ _) _ _ below with
          ⟨failure, fails⟩ | ⟨parent, last, value, there, gets, removes⟩
        · refine .inl ⟨failure, fun operation => ?_⟩
          cases operation with
          | get => rw [got, fails]
          | remove => rw [removed, fails]
        · exact .inr ⟨parent, last, value, there, got.trans gets, removed.trans removes⟩

def NamesTopSubquery (result : QueryResult) (path : Text) : Prop :=
  ∃ subqueryId, splitPath path = [result.queryId, subqueryId] ∧ '[' ∉ subqueryId ∧
    (result.data.lookup subqueryId).isSome = true

lemma splitBracket_cases (part : Text) :
    ('[' ∉ part ∧ splitBracket part = [part]) ∨
      ('[' ∈ part ∧ ∃ front bracketed, splitBracket part = [front, bracketed]) := by
  unfold splitBracket
  rw [span_eq_takeWhile_dropWhile]
  cases after : part.dropWhile fun c => c != '[' with
  | nil =>
    refine .inl ⟨fun bracket => ?_, rfl⟩
    have passed := dropWhile_eq_nil_iff.mp after '[' bracket
    cases passed
  | cons c rest =>
    refine .inr ⟨?_, _, _, rfl⟩
    have stops : ¬ (c != '[') = true := by
      have first := head?_dropWhile_not (fun c => c != '[') part
      rw [after] at first
      simpa using first
    have isBracket : c = '[' := by simpa using stops
    rw [<- isBracket]
    exact (dropWhile_suffix _).subset (after ▸ mem_cons_self)

lemma flatMap_splitBracket_single {subqueryIds : List Text} {subqueryId : Text}
    (split : subqueryIds.flatMap splitBracket = [subqueryId]) :
    subqueryIds = [subqueryId] ∧ '[' ∉ subqueryId := by
  cases subqueryIds with
  | nil => cases split
  | cons first others =>
    rw [flatMap_cons] at split
    have later : others = [] := by
      cases others with
      | nil => rfl
      | cons second rest =>
        have total := congrArg List.length split
        rw [flatMap_cons] at total
        rcases splitBracket_cases first with ⟨_, one⟩ | ⟨_, _, _, one⟩ <;>
          rcases splitBracket_cases second with ⟨_, two⟩ | ⟨_, _, _, two⟩ <;>
          rw [one, two] at total <;> simp at total
    subst later
    rcases splitBracket_cases first with ⟨plain, one⟩ | ⟨_, _, _, one⟩
    · rw [one] at split
      cases split
      exact ⟨rfl, plain⟩
    · rw [one] at split
      cases split

/-- The walker fails, or arrives at once at a subquery at the top, or goes on from there. -/
inductive Processed (result : QueryResult) (path : Text) : Prop where
  | failed (failure : Failure) (ended : ∀ operation,
      processQueryValueFromResult formats result path operation = (.error failure, result))
      (isInner : ¬ NamesTopSubquery result path)
  | top (subqueryId : Text) (names : NamesTopSubquery result path)
      (found : (result.data.lookup subqueryId).isSome = true)
      (ended : ∀ operation, processQueryValueFromResult formats result path operation =
        (.ok (some [.field subqueryId]), result))
  | inner (parent : Location) (selector : Selector) (value : QueryValue)
      (found : (QueryValue.subquery result.data).at? (parent ++ [selector]) = some value)
      (got : processQueryValueFromResult formats result path .get =
        (.ok (some (parent ++ [selector])), result))
      (removed : processQueryValueFromResult formats result path .remove =
        (.ok none, { result with data := dataWithout parent selector result.data }))
      (isInner : ¬ NamesTopSubquery result path)

lemma processQueryValueFromResult_top {result : QueryResult} {path : Text}
    (names : NamesTopSubquery result path) :
    ∃ subqueryId, (result.data.lookup subqueryId).isSome = true ∧ ∀ operation,
      processQueryValueFromResult formats result path operation =
        (.ok (some [.field subqueryId]), result) := by
  rcases names with ⟨subqueryId, split, plain, found⟩
  refine ⟨subqueryId, found, fun operation => ?_⟩
  have whole : splitBracket subqueryId = [subqueryId] := by
    rcases splitBracket_cases subqueryId with ⟨_, one⟩ | ⟨bracket, _⟩
    · exact one
    · exact absurd bracket plain
  have filled : result.data.isEmpty = false := by
    cases empty : result.data with
    | nil =>
      rw [empty] at found
      cases found
    | cons entry rest => rfl
  unfold processQueryValueFromResult
  rw [split]
  dsimp only
  rw [if_neg (not_not_intro rfl), flatMap_singleton, whole]
  dsimp only
  rw [filled, if_neg Bool.false_ne_true, if_pos found, walkParts]

lemma processQueryValueFromResult_processed (result : QueryResult) (path : Text) :
    Processed formats result path := by
  by_cases names : NamesTopSubquery result path
  · rcases processQueryValueFromResult_top formats names with ⟨subqueryId, found, ended⟩
    exact .top subqueryId names found ended
  · have fails : ∀ failure, (∀ operation,
        processQueryValueFromResult formats result path operation = (.error failure, result)) ->
        Processed formats result path :=
      fun failure ended => .failed failure ended names
    cases split : splitPath path with
    | nil =>
      apply fails
      intro operation
      unfold processQueryValueFromResult
      rw [split]
      rfl
    | cons queryId subqueryIds =>
      by_cases same : queryId = result.queryId
      · have opened : ∀ operation,
            processQueryValueFromResult formats result path operation =
              match subqueryIds.flatMap splitBracket with
              | [] => (.invalidArgument (text "Path is not a subquery: " ++ path), result)
              | subqueryId :: rest =>
                if result.data.isEmpty then
                  (.invalidArgument (text "Query result has no data."), result)
                else if (result.data.lookup subqueryId).isSome then
                  ((walkParts formats operation rest [.field subqueryId] result.data).1,
                    { result with data := (walkParts formats operation rest
                      [.field subqueryId] result.data).2 })
                else (.error (.status (.notFound
                  (text "Subquery ID '" ++ subqueryId ++ text "' doesn't exist"))), result) := by
          intro operation
          unfold processQueryValueFromResult
          rw [split]
          exact if_neg (not_not_intro same)
        cases parts : subqueryIds.flatMap splitBracket with
        | nil =>
          apply fails
          intro operation
          rw [opened, parts]
          rfl
        | cons subqueryId rest =>
          simp only [parts] at opened
          cases empty : result.data.isEmpty with
          | true =>
            apply fails
            intro operation
            rw [opened, empty]
            rfl
          | false =>
            rw [empty] at opened
            cases looked : result.data.lookup subqueryId with
            | none =>
              apply fails
              intro operation
              rw [opened, looked]
              rfl
            | some value =>
              rw [looked] at opened
              have more : rest ≠ [] := by
                intro single
                subst single
                rcases flatMap_splitBracket_single parts with ⟨alone, plain⟩
                apply names
                refine ⟨subqueryId, ?_, plain, by rw [looked]; rfl⟩
                rw [split, same, alone]
              have start : (QueryValue.subquery result.data).at? [.field subqueryId] =
                  some value := by
                rw [QueryValue.at?_cons]
                change (result.data.lookup subqueryId).bind _ = _
                rw [looked, Option.bind_some, QueryValue.at?_nil]
              rcases walkParts_agree formats rest result.data more _ _ start with
                ⟨failure, ended⟩ | ⟨parent, selector, found, there, gets, removes⟩
              · apply fails failure
                intro operation
                rw [opened, ended]
                rfl
              · refine .inner parent selector found there ?_ ?_ names
                · rw [opened, gets]
                  rfl
                · rw [opened, removes]
                  rfl
      · apply fails
        intro operation
        unfold processQueryValueFromResult
        rw [split]
        exact if_pos same

end

/-- A removal takes away exactly what is got, unless the path names a subquery at the top of the
result. -/
theorem removes_got_iff :
    ∀ (formats : ValueFormats) (result : QueryResult) (path : Text),
      (((∃ done, (removeQueryValueFromResult formats result path).1 = .ok done) ↔
            ∃ value, getQueryValueFromResult formats result path = .ok value) ∧
          (∀ location, getMutableQueryValueFromResult formats result path =
              .ok (some location) ->
            ∃ parent selector, location = parent ++ [selector] ∧
              (removeQueryValueFromResult formats result path).2 =
                { result with data := dataWithout parent selector result.data }) ∧
          (∀ failure, (removeQueryValueFromResult formats result path).1 = .error failure ->
            (removeQueryValueFromResult formats result path).2 = result)) ↔
        ¬ NamesTopSubquery result path := by
  intro formats result path
  unfold removeQueryValueFromResult getQueryValueFromResult getMutableQueryValueFromResult
  cases processQueryValueFromResult_processed formats result path with
  | failed failure ended isInner =>
    refine iff_of_true ?_ isInner
    rw [ended, ended]
    refine ⟨?_, ?_, ?_⟩
    · constructor
      · rintro ⟨done, impossible⟩
        cases impossible
      · rintro ⟨value, impossible⟩
        cases impossible
    · intro location impossible
      cases impossible
    · intro _ _
      rfl
  | top subqueryId names found ended =>
    refine iff_of_false ?_ (not_not_intro names)
    rw [ended, ended]
    rintro ⟨_, removes, _⟩
    rcases removes _ rfl with ⟨parent, selector, same, unchanged⟩
    have split : [] = parent ∧ [Selector.field subqueryId] = [selector] := List.append_inj' same rfl
    rw [<- split.1, <- List.singleton_inj.mp split.2] at unchanged
    have gone := lookup_dataWithout subqueryId result.data
    have kept : result.data = dataWithout [] (.field subqueryId) result.data :=
      congrArg QueryResult.data unchanged
    rw [<- kept] at gone
    rw [gone] at found
    cases found
  | inner parent selector value found got removed isInner =>
    refine iff_of_true ?_ isInner
    rw [got, removed]
    refine ⟨?_, ?_, ?_⟩
    · refine iff_of_true ⟨(), rfl⟩ ⟨value, ?_⟩
      dsimp only [bind, Except.bind]
      rw [Option.bind_some, found]
    · intro location same
      cases same
      exact ⟨parent, selector, rfl, rfl⟩
    · intro failure impossible
      cases impossible

/-- Formats for values without doubles and time stamps. -/
def plainFormats : ValueFormats where
  double _ := []
  time _ _ := []

def chassisResult : QueryResult :=
  { QueryResult.start (text "query") with
    data := [(text "chassis", .list [.subquery [(text "Name", .string (text "A"))]])] }

example : (removeQueryValueFromResult plainFormats chassisResult
    (text "query.chassis[Name=A].Name")).2.data = [(text "chassis", .list [.subquery []])] := by
  rfl

/-- A subquery at the top is got, and stays. -/
theorem keeps_top_subquery :
    getMutableQueryValueFromResult plainFormats chassisResult (text "query.chassis") =
        .ok (some [.field (text "chassis")]) ∧
      removeQueryValueFromResult plainFormats chassisResult (text "query.chassis") =
        (.ok (), chassisResult) := by
  exact ⟨rfl, rfl⟩

end Ecclesia.Query
