import Ecclesia.Override.Walk

namespace Ecclesia.Override

open Json List

/-!
# Overrides from the top down

What a policy asks for is said by a recursion without positions and sizes: an object with an
id and another member gets the fields of its URI, those that fail are skipped, and then
everything in it gets its own.  The walk skips whatever has a single element, and it does not
survive an exception.

The addresses that the walk remembers never stop it: what it comes to is at a position that
extends none of those it has been at.
-/

section

variable (equals : Json -> Json -> Bool)

/-- Apply a field unless it fails. -/
def applySkipping (json : Json) (field : OverrideField) : Json :=
  match resultUpdateHelper equals field json with
  | .ok updated => updated
  | .error _ => json

/-- The fields of a URI, and then those of every valid expression that matches it. -/
def fieldsOfPolicy (re2 : Text -> Option (Text -> Bool)) (policy : OverridePolicy) (uri : Text) :
    List OverrideField :=
  (policy.overrideContentMapUri.lookup uri).getD [] ++
    policy.overrideContentMapRegex.flatMap fun entry =>
      if (re2 entry.1).any fun fullMatch => fullMatch uri then entry.2 else []

/-- The fields for an object with an id and at least one further member. -/
def ownFields (re2 : Text -> Option (Text -> Bool)) (policy : OverridePolicy) (json : Json) :
    List OverrideField :=
  match json.find (text "@odata.id") with
  | some (.string uri) => if 2 <= json.size then fieldsOfPolicy re2 policy uri else []
  | _ => []

/-- The overrides of a value and of everything in it, down to a depth. -/
def topDown (re2 : Text -> Option (Text -> Bool)) (policy : OverridePolicy) :
    Nat -> Json -> Option Json
  | 0, _ => none
  | depth + 1, json =>
    let updated := (ownFields re2 policy json).foldl (applySkipping equals) json
    match json with
    | .array _ | .object _ =>
      (updated.items.mapM (topDown re2 policy depth)).map updated.withItems
    | _ => some json

def walkItems (visit : Json -> Option (Evaluation Json)) :
    List Json -> Option (Evaluation (List Json))
  | [] => some (.ok [])
  | item :: rest =>
    match visit item with
    | none => none
    | some (.error failure) => some (.error failure)
    | some (.ok updated) =>
      match walkItems visit rest with
      | none => none
      | some (.error failure) => some (.error failure)
      | some (.ok updatedRest) => some (.ok (updated :: updatedRest))

def walk (context : OverrideContext) : Nat -> Json -> Option (Evaluation Json)
  | 0, _ => none
  | bound + 1, json =>
    if json.size = 1 then some (.ok json)
    else
      match applyOverrides equals context json with
      | .error failure => some (.error failure)
      | .ok updated =>
        match walkItems (walk context bound) updated.items with
        | none => none
        | some (.error failure) => some (.error failure)
        | some (.ok items) => some (.ok (updated.withItems items))

end

/-- A position at which the walk has not been, nor below it. -/
def Fresh (position : Position) (visited : HashSet Position) : Prop :=
  ∀ other ∈ visited.elements, ¬ position <+: other

/-- What has been visited since is at a position or below it. -/
def Below (position : Position) (before after : HashSet Position) : Prop :=
  ∀ other ∈ after.elements, other ∈ before.elements ∨ position <+: other

lemma Fresh.next {position : Position} {index later : Nat} {before after : HashSet Position}
    (fresh : Fresh (position ++ [later]) before) (below : Below (position ++ [index]) before after)
    (less : index < later) : Fresh (position ++ [later]) after := by
  intro other member under
  rcases below other member with earlier | here
  · exact fresh other earlier under
  · have same : position ++ [later] = position ++ [index] := by
      apply (prefix_of_prefix_length_le under here _).eq_of_length
      · simp
      · simp
    have equal := append_cancel_left same
    cases equal
    exact Nat.lt_irrefl _ less

variable {equals : Json -> Json -> Bool} {context : OverrideContext}

def leaving {Result Visited : Type} (after : Visited) (walked : Option (Evaluation Result)) :
    Option (Evaluation (Result × Visited)) :=
  walked.map fun evaluated => evaluated.map fun updated => (updated, after)

lemma visitItems_eq {visit : Nat -> Json -> HashSet Position ->
      Option (Evaluation (Json × HashSet Position))} {plain : Json -> Option (Evaluation Json)}
    {position : Position} (same : ∀ index item visited, Fresh (position ++ [index]) visited ->
      ∃ after, Below (position ++ [index]) visited after ∧
        visit index item visited = leaving after (plain item)) :
    ∀ (items : List Json) (index : Nat) (visited : HashSet Position),
      (∀ later, index <= later -> Fresh (position ++ [later]) visited) ->
      ∃ after, Below position visited after ∧
        visitItems visit index items visited = leaving after (walkItems plain items) := by
  intro items
  induction items with
  | nil => exact fun index visited _ => ⟨visited, fun _ member => .inl member, rfl⟩
  | cons item rest ih =>
    intro index visited fresh
    rcases same index item visited (fresh index (le_rfl)) with ⟨after, below, visitedItem⟩
    have freshRest : ∀ later, index + 1 <= later -> Fresh (position ++ [later]) after :=
      fun later less => (fresh later (Nat.le_of_succ_le less)).next below less
    rcases ih (index + 1) after freshRest with ⟨last, belowRest, visitedRest⟩
    refine ⟨last, ?_, ?_⟩
    · intro other member
      rcases belowRest other member with earlier | under
      · rcases below other earlier with before | here
        · exact .inl before
        · exact .inr ((prefix_append position [index]).trans here)
      · exact .inr under
    · rw [visitItems, walkItems, visitedItem]
      cases plain item with
      | none => rfl
      | some evaluated =>
        cases evaluated with
        | error failure => rfl
        | ok updated =>
          simp only [leaving, Option.map_some, Except.map] at visitedRest ⊢
          rw [visitedRest]
          cases walkItems plain rest with
          | none => rfl
          | some evaluatedRest =>
            cases evaluatedRest with
            | error failure => rfl
            | ok updatedRest => rfl

/-- The walk is not stopped by the addresses that it remembers. -/
lemma resultExpandUpdateHelper_eq : ∀ (bound : Nat) (position : Position) (json : Json)
    (visited : HashSet Position), Fresh position visited ->
    ∃ after, Below position visited after ∧
      resultExpandUpdateHelper equals context bound position json visited =
        leaving after (walk equals context bound json) := by
  intro bound
  induction bound with
  | zero => exact fun position json visited _ => ⟨visited, fun _ member => .inl member, rfl⟩
  | succ bound ih =>
    intro position json visited fresh
    have absent : position ∉ visited.elements :=
      fun member => fresh position member (prefix_refl position)
    have inserted : Below position visited (visited.insert position) := by
      intro other member
      rcases HashSet.mem_insert.mp member with same | before
      · rw [same]
        exact .inr (prefix_refl position)
      · exact .inl before
    rw [resultExpandUpdateHelper, walk, if_neg absent]
    by_cases single : json.size = 1
    · simp only [if_pos single]
      exact ⟨_, inserted, rfl⟩
    · simp only [if_neg single]
      cases applyOverrides equals context json with
      | error failure => exact ⟨_, inserted, rfl⟩
      | ok updated =>
        have freshItems : ∀ later, 0 <= later ->
            Fresh (position ++ [later]) (visited.insert position) := by
          intro later _ other member under
          rcases HashSet.mem_insert.mp member with same | before
          · have shorter := under.length_le
            rw [same, length_append] at shorter
            exact absurd shorter (Nat.not_succ_le_self _)
          · exact fresh other before ((prefix_append position [later]).trans under)
        rcases visitItems_eq (fun index item after => ih (position ++ [index]) item after)
          updated.items 0 _ freshItems with ⟨after, below, walked⟩
        refine ⟨after, ?_, ?_⟩
        · intro other member
          rcases below other member with earlier | under
          · exact inserted other earlier
          · exact .inr under
        · simp only [walked]
          cases walkItems (walk equals context bound) updated.items with
          | none => rfl
          | some evaluated =>
            cases evaluated with
            | error failure => rfl
            | ok items => rfl

end Ecclesia.Override
