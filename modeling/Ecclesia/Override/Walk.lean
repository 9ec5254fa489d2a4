import Ecclesia.Override.Policy

namespace Ecclesia.Override

open Json

/-!
# The walk over a response

The walk updates an object and then goes on with what the object holds after the update.  It
remembers the addresses of the values that it has visited; the address of a value is its
position in the response.  The walk has a bound on its depth, since an override may add
objects that the same override applies to.

The library of regular expressions is a parameter: it compiles an expression, unless that is
invalid, into a test for a full match.
-/

/-- The position of a value: the indices that lead to it. -/
abbrev Position := List Nat

structure OverrideContext where
  policy : OverridePolicy
  re2AndContent : List ((Text -> Bool) × List OverrideField)

/-- The context that `SetOverridePolicyOnce` makes.  Invalid expressions are skipped. -/
def setOverridePolicy (re2 : Text -> Option (Text -> Bool)) (newPolicy : OverridePolicy) :
    OverrideContext where
  policy := newPolicy
  re2AndContent := newPolicy.overrideContentMapRegex.filterMap fun entry =>
    (re2 entry.1).map fun fullMatch => (fullMatch, entry.2)

variable (equals : Json -> Json -> Bool)

/-- Apply a field, and go on if it is refused. -/
def applyField (json : Json) (field : OverrideField) : Evaluation Json :=
  match resultUpdateHelper equals field json with
  | .ok updated => .ok updated
  | .error (.status _) => .ok json
  | .error (.exception what) => .error (.exception what)

/-- The fields for a URI: those under it, but for expands, and those under expressions that match.
-/
def fieldsFor (context : OverrideContext) (checkedPath : Text) : List OverrideField :=
  (((context.policy.overrideContentMapUri.lookup checkedPath).getD []).filter fun field =>
      !(field.isExpand.getD false)) ++
    (context.re2AndContent.filter fun entry => entry.1 checkedPath).flatMap Prod.snd

/-- The overrides of a value that includes its id. -/
def applyOverrides (context : OverrideContext) (json : Json) : Evaluation Json :=
  match json.find (text "@odata.id") with
  | none => .ok json
  | some id =>
    match id.getString with
    | .error failure => .error failure
    | .ok checkedPath => (fieldsFor context checkedPath).foldlM (applyField equals) json

/-- The loop over the items of a value, from an index on. -/
def visitItems {Visited : Type}
    (visit : Nat -> Json -> Visited -> Option (Evaluation (Json × Visited))) :
    Nat -> List Json -> Visited -> Option (Evaluation (List Json × Visited))
  | _, [], visited => some (.ok ([], visited))
  | index, item :: rest, visited =>
    match visit index item visited with
    | none => none
    | some (.error failure) => some (.error failure)
    | some (.ok (updated, visitedItem)) =>
      match visitItems visit (index + 1) rest visitedItem with
      | none => none
      | some (.error failure) => some (.error failure)
      | some (.ok (updatedRest, visitedRest)) =>
        some (.ok (updated :: updatedRest, visitedRest))

def resultExpandUpdateHelper (context : OverrideContext) :
    Nat -> Position -> Json -> HashSet Position -> Option (Evaluation (Json × HashSet Position))
  | 0, _, _, _ => none
  | bound + 1, position, json, visitedJson =>
    if position ∈ visitedJson.elements then some (.ok (json, visitedJson))
    else
      let visitedJson := visitedJson.insert position
      -- A stub that only has its id, or a value.
      if json.size = 1 then some (.ok (json, visitedJson))
      else
        match applyOverrides equals context json with
        | .error failure => some (.error failure)
        | .ok updated =>
          match visitItems
              (fun index => resultExpandUpdateHelper context bound (position ++ [index]))
              0 updated.items visitedJson with
          | none => none
          | some (.error failure) => some (.error failure)
          | some (.ok (items, visited)) => some (.ok (updated.withItems items, visited))

/-- `RedfishTransport::Result` -/
structure TransportResult where
  code : Int
  body : Json ⊕ List Nat

/-- `TryApplyingOverride`, with the context that it leaves.  Without a context the policy is
asked for. -/
def tryApplyingOverride (re2 : Text -> Option (Text -> Bool))
    (overridePolicyCb : StatusOr OverridePolicy) (bound : Nat) (getResult : TransportResult)
    (overrideContext : Option OverrideContext) :
    Option (Evaluation (TransportResult × Option OverrideContext)) :=
  match getResult.body with
  | .inr _ => some (.ok (getResult, overrideContext))
  | .inl json =>
    let initialized : Option OverrideContext :=
      match overrideContext, overridePolicyCb with
      | some context, _ => some context
      | none, .ok newPolicy => some (setOverridePolicy re2 newPolicy)
      | none, .error _ => none
    match initialized with
    | none => some (.ok (getResult, none))
    | some context =>
      (resultExpandUpdateHelper equals context bound [] json .empty).map fun walked =>
        walked.map fun updated => ({ getResult with body := .inl updated.1 }, some context)

end Ecclesia.Override
