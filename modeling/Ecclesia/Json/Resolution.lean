import Ecclesia.Json.PropertyPath

namespace Ecclesia.PathUtil

open Absl List
open Predicates (trimmed_of_visible)

/-!
# What node names resolve to

The resolver follows what it reads a text as.  An element that is not there counts as null, also
in the null value itself, and an index at any other value is an exception.
-/

variable (steps : List PathStep)

/-- Nothing but what the path leads to is returned, and an error if it leads nowhere. -/
def Resolves (value : Json) : Prop :=
  match follow steps value with
  | some reached => resolveRedPathNodeToJson value (pathText steps) = .ok reached
  | none => ∃ status, resolveRedPathNodeToJson value (pathText steps) = .error (.status status)

inductive IndexFault where
  | noElement
  | noArray

def indexFault : Option Nat -> Json -> Option IndexFault
  | none, _ => none
  | some index, .array elements => if index < elements.length then none else some .noElement
  | some _, .null => some .noElement
  | some _, _ => some .noArray

def PathStep.fault (step : PathStep) (value : Json) : Option IndexFault :=
  (value.find step.name).bind (indexFault step.index)

/-- Every index is at an array. Before the last step an element may be missing. -/
def Fits : List PathStep -> Json -> Prop
  | [], _ => True
  | step :: rest, value =>
    match step.fault value with
    | some .noArray => False
    | some .noElement => rest ≠ []
    | none => ∀ reached, step.follow value = some reached -> Fits rest reached

def EndsMissing : List PathStep -> Json -> Prop
  | [], _ => False
  | step :: rest, value =>
    match step.fault value with
    | some .noArray => False
    | some .noElement => rest = []
    | none => ∃ reached, step.follow value = some reached ∧ EndsMissing rest reached

variable {value : Json}

lemma elementAt_of_fault {index : Option Nat} {fault : IndexFault}
    (wrong : indexFault index value = some fault) : elementAt index value = none := by
  cases index with
  | none => cases wrong
  | some index =>
    cases value with
    | array elements =>
      by_cases inside : index < elements.length
      · rw [indexFault, if_pos inside] at wrong
        cases wrong
      · exact getElem?_eq_none (Nat.le_of_not_lt inside)
    | _ => rfl

/-- One step, as the resolver takes it. -/
def PathStep.run (step : PathStep) (value : Json) : Evaluation Json :=
  match value.find step.name with
  | none => .internal (text "Node " ++ step.name ++ text " not found in json object")
  | some found =>
    match step.index with
    | some index => found.atIndex index
    | none => .ok found

lemma processNodeName_eq (segment : Text) (value : Json) :
    processNodeName segment value = (readSegment segment).run value := by
  unfold processNodeName readSegment PathStep.run
  cases read : (if endsWith segment (text "]") then splitNodeNameIfArrayType segment else none) with
  | none => rfl
  | some indexed =>
    rcases indexed with ⟨name, index⟩
    have nonneg : 0 <= index := by
      split at read
      · exact splitNodeNameIfArrayType_nonneg read
      · cases read
    dsimp only
    cases value.find name with
    | none => rfl
    | some found => exact if_pos nonneg

lemma foldlM_processNodeName_eq (segments : List Text) :
    ∀ value : Json,
      segments.foldlM (fun current name => processNodeName name current) value =
        (segments.map readSegment).foldlM (fun current step => PathStep.run step current) value := by
  induction segments with
  | nil => exact fun _ => rfl
  | cons segment rest ih =>
    intro value
    rw [foldlM_cons, processNodeName_eq]
    congr 1
    funext reached
    exact ih reached

lemma resolve_eq (value : Json) (path : Text) :
    resolveRedPathNodeToJson value path =
      if readPath path = [] then .internal (text "Given NodeName is empty or invalid.")
      else (readPath path).foldlM (fun current step => PathStep.run step current) value := by
  unfold resolveRedPathNodeToJson readPath
  cases splitNodeNameForNestedNodes path with
  | nil => rfl
  | cons first rest =>
    have some_ : (first :: rest).map readSegment ≠ [] := cons_ne_nil _ _
    rw [if_neg some_, <- foldlM_processNodeName_eq, foldlM_cons]

variable {step : PathStep}

lemma run_of_noFault (right : step.fault value = none) :
    match step.follow value with
    | some reached => step.run value = .ok reached
    | none => ∃ message, step.run value = .internal message := by
  unfold PathStep.fault at right
  unfold PathStep.follow PathStep.run
  cases found : value.find step.name with
  | none => exact ⟨_, rfl⟩
  | some member =>
    rw [found, Option.bind_some] at right
    rw [Option.bind_some]
    cases isIndex : step.index with
    | none => rfl
    | some index =>
      rw [isIndex] at right
      cases member with
      | array elements =>
        by_cases inside : index < elements.length
        · have isElement := getElem?_eq_getElem inside
          simp only [elementAt, Json.atIndex]
          rw [getD_eq_getElem?_getD, isElement]
          rfl
        · rw [indexFault, if_neg inside] at right
          cases right
      | _ => cases right

lemma run_of_noElement (wrong : step.fault value = some .noElement) :
    step.run value = .ok .null ∧ step.follow value = none := by
  rcases Option.bind_eq_some_iff.mp wrong with ⟨member, found, fault⟩
  unfold PathStep.follow PathStep.run
  rw [found, Option.bind_some, elementAt_of_fault fault]
  refine ⟨?_, rfl⟩
  cases isIndex : step.index with
  | none =>
    rw [isIndex] at fault
    cases fault
  | some index =>
    rw [isIndex] at fault
    cases member with
    | array elements =>
      have outside : ¬ index < elements.length := by
        intro inside
        rw [indexFault, if_pos inside] at fault
        cases fault
      have isMissing : elements[index]? = none := getElem?_eq_none (Nat.le_of_not_lt outside)
      simp only [Json.atIndex]
      rw [getD_eq_getElem?_getD, isMissing]
      rfl
    | null => rfl
    | _ => cases fault

lemma run_of_noArray (wrong : step.fault value = some .noArray) :
    (∃ thrown, step.run value = .error (.exception thrown)) ∧ step.follow value = none := by
  rcases Option.bind_eq_some_iff.mp wrong with ⟨member, found, fault⟩
  unfold PathStep.follow PathStep.run
  rw [found, Option.bind_some, elementAt_of_fault fault]
  refine ⟨?_, rfl⟩
  cases isIndex : step.index with
  | none =>
    rw [isIndex] at fault
    cases fault
  | some index =>
    rw [isIndex] at fault
    cases member with
    | array elements =>
      rw [indexFault] at fault
      split at fault <;> cases fault
    | null => cases fault
    | _ => exact ⟨_, rfl⟩

def runSteps (value : Json) : Evaluation Json :=
  steps.foldlM (fun current step => PathStep.run step current) value

lemma runSteps_cons (step : PathStep) (rest : List PathStep) (value : Json) :
    runSteps (step :: rest) value = (step.run value).bind (runSteps rest) :=
  foldlM_cons

lemma runSteps_null {steps : List PathStep} (nonempty : steps ≠ []) :
    ∃ message, runSteps steps .null = .internal message := by
  cases steps with
  | nil => exact absurd rfl nonempty
  | cons step rest => exact ⟨_, rfl⟩

lemma runSteps_of_fits : ∀ {steps : List PathStep} {value : Json}, Fits steps value ->
    match walk steps value with
    | some reached => runSteps steps value = .ok reached
    | none => ∃ message, runSteps steps value = .internal message := by
  intro steps
  induction steps with
  | nil => exact fun _ => rfl
  | cons step rest ih =>
    intro value fits
    rw [runSteps_cons, walk]
    unfold Fits at fits
    cases fault : step.fault value with
    | none =>
      rw [fault] at fits
      have ran := run_of_noFault fault
      cases reached : step.follow value with
      | none =>
        rw [reached] at ran
        rcases ran with ⟨message, ran⟩
        rw [ran]
        exact ⟨message, rfl⟩
      | some next =>
        rw [reached] at ran
        rw [ran]
        exact ih (fits next reached)
    | some fault_ =>
      rw [fault] at fits
      cases fault_ with
      | noArray => exact fits.elim
      | noElement =>
        rcases run_of_noElement fault with ⟨ran, missing⟩
        rw [ran, missing]
        exact runSteps_null fits

lemma runSteps_of_endsMissing : ∀ {steps : List PathStep} {value : Json},
    EndsMissing steps value -> runSteps steps value = .ok .null ∧ walk steps value = none := by
  intro steps
  induction steps with
  | nil => exact fun impossible => impossible.elim
  | cons step rest ih =>
    intro value missing
    rw [runSteps_cons, walk]
    unfold EndsMissing at missing
    cases fault : step.fault value with
    | none =>
      rw [fault] at missing
      rcases missing with ⟨next, reached, missing⟩
      have ran := run_of_noFault fault
      rw [reached] at ran ⊢
      rw [ran]
      exact ih missing
    | some fault_ =>
      rw [fault] at missing
      cases fault_ with
      | noArray => exact missing.elim
      | noElement =>
        rcases run_of_noElement fault with ⟨ran, nowhere⟩
        rw [ran, nowhere, missing]
        exact ⟨rfl, rfl⟩

lemma runSteps_throws : ∀ {steps : List PathStep} {value : Json}, ¬ Fits steps value ->
    ¬ EndsMissing steps value -> ∃ thrown, runSteps steps value = .error (.exception thrown) := by
  intro steps
  induction steps with
  | nil => exact fun unfit => absurd trivial unfit
  | cons step rest ih =>
    intro value unfit notMissing
    rw [runSteps_cons]
    unfold Fits at unfit
    unfold EndsMissing at notMissing
    cases fault : step.fault value with
    | none =>
      rw [fault] at unfit notMissing
      push Not at unfit
      rcases unfit with ⟨next, reached, unfit⟩
      have ran := run_of_noFault fault
      rw [reached] at ran
      rw [ran]
      exact ih unfit fun missing => notMissing ⟨next, reached, missing⟩
    | some fault_ =>
      cases fault_ with
      | noArray =>
        rcases (run_of_noArray fault).1 with ⟨thrown, ran⟩
        rw [ran]
        exact ⟨thrown, rfl⟩
      | noElement =>
        rw [fault] at unfit notMissing
        exact absurd notMissing unfit

/-- A path is resolved exactly if what is read leads to the same, or its last element is missing and
the path leads to null. -/
lemma resolves_iff_same (value : Json) :
    Resolves steps value ↔
      (Fits (readPath (pathText steps)) value ∧
          follow (readPath (pathText steps)) value = follow steps value) ∨
        EndsMissing (readPath (pathText steps)) value ∧ follow steps value = some .null := by
  have resolved := resolve_eq value (pathText steps)
  unfold Resolves
  by_cases unread : readPath (pathText steps) = []
  · rw [resolved, unread]
    have fits : Fits [] value := trivial
    have notMissing : ¬ EndsMissing [] value := id
    cases follow steps value with
    | none => exact iff_of_true ⟨_, rfl⟩ (.inl ⟨fits, rfl⟩)
    | some reached =>
      apply iff_of_false
      · intro same
        cases same
      · rintro (⟨_, same⟩ | ⟨missing, _⟩)
        · cases same
        · exact notMissing missing
  · rw [if_neg unread] at resolved
    change _ = runSteps (readPath (pathText steps)) value at resolved
    have leads : follow (readPath (pathText steps)) value =
        walk (readPath (pathText steps)) value := if_neg unread
    rw [resolved, leads]
    by_cases fits : Fits (readPath (pathText steps)) value
    · have ran := runSteps_of_fits fits
      have notMissing : ¬ EndsMissing (readPath (pathText steps)) value := by
        intro missing
        rw [(runSteps_of_endsMissing missing).2, (runSteps_of_endsMissing missing).1] at ran
        rcases ran with ⟨message, impossible⟩
        cases impossible
      rw [or_iff_left fun missing => notMissing missing.1, and_iff_right fits]
      cases walked : walk (readPath (pathText steps)) value with
      | none =>
        rw [walked] at ran
        rcases ran with ⟨message, ran⟩
        rw [ran]
        cases follow steps value with
        | none => exact iff_of_true ⟨_, rfl⟩ rfl
        | some reached =>
          apply iff_of_false
          · intro same
            cases same
          · intro same
            cases same
      | some next =>
        rw [walked] at ran
        rw [ran]
        cases follow steps value with
        | none =>
          apply iff_of_false
          · rintro ⟨status, same⟩
            cases same
          · intro same
            cases same
        | some reached =>
          constructor
          · intro same
            rw [Except.ok.inj same]
          · intro same
            rw [Option.some.inj same]
    · rw [or_iff_right fun fitting => fits fitting.1]
      by_cases missing : EndsMissing (readPath (pathText steps)) value
      · rw [(runSteps_of_endsMissing missing).1, and_iff_right missing]
        cases follow steps value with
        | none =>
          apply iff_of_false
          · rintro ⟨status, same⟩
            cases same
          · intro same
            cases same
        | some reached =>
          constructor
          · intro same
            rw [Except.ok.inj same]
          · intro same
            rw [Option.some.inj same]
      · rcases runSteps_throws fits missing with ⟨thrown, ran⟩
        rw [ran]
        apply iff_of_false
        · cases follow steps value with
          | none =>
            rintro ⟨status, same⟩
            cases same
          | some reached =>
            intro same
            cases same
        · exact fun both => missing both.1

def valueAlong : List PathStep -> Json
  | [] => .string []
  | step :: rest =>
    .object
      [(step.name,
        match step.index with
        | none => valueAlong rest
        | some index => .array (List.replicate index .null ++ [valueAlong rest]))]

lemma lookup_single (name other : Text) (value : Json) :
    Json.find (.object [(name, value)]) other = if other = name then some value else none := by
  by_cases same : other = name
  · rw [same]
    simp [Json.find]
  · rw [if_neg same]
    simp [Json.find, lookup_cons, beq_false_of_ne same]

lemma element_last (index : Nat) (value : Json) :
    (replicate index Json.null ++ [value])[index]? = some value := by
  simp

lemma follow_valueAlong (step : PathStep) (rest : List PathStep) :
    step.follow (valueAlong (step :: rest)) = some (valueAlong rest) := by
  rcases step with ⟨name, index⟩
  rw [PathStep.follow, valueAlong, lookup_single, if_pos rfl]
  cases index with
  | none => rfl
  | some index => exact element_last index (valueAlong rest)

lemma fault_valueAlong (step : PathStep) (rest : List PathStep) :
    step.fault (valueAlong (step :: rest)) = none := by
  rcases step with ⟨name, index⟩
  rw [PathStep.fault, valueAlong, lookup_single, if_pos rfl]
  cases index with
  | none => rfl
  | some index =>
    apply if_pos
    simp

lemma walk_valueAlong : walk steps (valueAlong steps) = some (.string []) := by
  induction steps with
  | nil => rfl
  | cons step rest ih => rw [walk, follow_valueAlong, Option.bind_some, ih]

lemma fits_valueAlong : Fits steps (valueAlong steps) := by
  induction steps with
  | nil => trivial
  | cons step rest ih =>
    unfold Fits
    rw [fault_valueAlong]
    intro reached same
    rw [follow_valueAlong] at same
    cases same
    exact ih

/-- Nothing that is not an object leads anywhere, and only a text is the text. -/
lemma walk_other {steps : List PathStep} (noMembers : ∀ name, value.find name = none)
    (walked : walk steps value = some (.string [])) : value = .string [] := by
  cases steps with
  | nil => exact Option.some.inj walked
  | cons step rest =>
    rw [walk, PathStep.follow, noMembers] at walked
    cases walked

lemma index_of_walk {index otherIndex : Option Nat} {rest more : List PathStep}
    (walked : (elementAt otherIndex
        (match index with
          | none => valueAlong rest
          | some index => .array (replicate index .null ++ [valueAlong rest]))).bind
        (walk more) = some (.string [])) :
    otherIndex = index ∧ walk more (valueAlong rest) = some (.string []) := by
  cases index with
  | none =>
    cases otherIndex with
    | none => exact ⟨rfl, walked⟩
    | some other =>
      cases rest with
      | nil => cases walked
      | cons step rest => cases walked
  | some index =>
    cases otherIndex with
    | none => cases walk_other (fun _ => rfl) walked
    | some other =>
      dsimp only [elementAt] at walked
      rcases Nat.lt_trichotomy other index with less | same | more_
      · have isNull : (replicate index Json.null ++ [valueAlong rest])[other]? = some .null := by
          rw [getElem?_append_left (by simpa using less)]
          simp [less]
        rw [isNull] at walked
        cases walk_other (fun _ => rfl) walked
      · rw [same, element_last] at walked
        exact ⟨congrArg some same, walked⟩
      · have isMissing : (replicate index Json.null ++ [valueAlong rest])[other]? = none :=
          getElem?_eq_none (by simpa using Nat.succ_le_of_lt more_)
        rw [isMissing] at walked
        cases walked

lemma eq_of_walk_valueAlong : ∀ {steps others : List PathStep},
    walk others (valueAlong steps) = some (.string []) -> others = steps := by
  intro steps
  induction steps with
  | nil =>
    intro others walked
    cases others with
    | nil => rfl
    | cons step rest => cases walked
  | cons step rest ih =>
    intro others walked
    cases others with
    | nil => cases walked
    | cons other more =>
      rcases step with ⟨name, index⟩
      rcases other with ⟨otherName, otherIndex⟩
      rw [walk, PathStep.follow, valueAlong, lookup_single] at walked
      by_cases sameName : otherName = name
      · subst sameName
        rw [if_pos rfl] at walked
        rcases index_of_walk walked with ⟨sameIndex, later⟩
        have same : otherIndex = index := sameIndex
        rw [same, ih later]
      · rw [if_neg sameName] at walked
        cases walked

/-- A path is resolved exactly if what its text is read as leads to the same, or ends at a missing
element where the path leads to null. A legible path is read as itself; on another one the resolver
fails for some value with which all indexes fit. -/
theorem resolveRedPathNodeToJson_resolves_iff :
    ∀ steps : List PathStep,
      (∀ value : Json,
        Resolves steps value ↔
          (Fits (readPath (pathText steps)) value ∧
              follow (readPath (pathText steps)) value = follow steps value) ∨
            EndsMissing (readPath (pathText steps)) value ∧ follow steps value = some .null) ∧
      (Legible steps -> ∀ value : Json, Resolves steps value ↔ Fits steps value) ∧
      (steps ≠ [] -> readPath (pathText steps) ≠ steps ->
        ∃ value : Json, Fits steps value ∧ ¬ Resolves steps value) := by
  intro steps
  refine ⟨resolves_iff_same steps, ?_, ?_⟩
  · intro legible value
    rw [resolves_iff_same, readPath_of_legible legible]
    constructor
    · rintro (⟨fits, _⟩ | ⟨missing, isNull⟩)
      · exact fits
      · have nowhere : follow steps value = none := by
          unfold follow
          rw [(runSteps_of_endsMissing missing).2, ite_self]
        rw [nowhere] at isNull
        cases isNull
    · exact fun fits => .inl ⟨fits, rfl⟩
  · intro nonempty other
    refine ⟨valueAlong steps, fits_valueAlong steps, ?_⟩
    have leads : follow steps (valueAlong steps) = some (.string []) := by
      rw [follow, if_neg nonempty, walk_valueAlong]
    rw [resolves_iff_same, leads]
    rintro (⟨_, same⟩ | ⟨_, isNull⟩)
    · unfold follow at same
      split at same
      · cases same
      · exact other (eq_of_walk_valueAlong same)
    · cases isNull

/-- A path to the first fan, and one with a name that is not read as it is written. -/
theorem resolveRedPathNodeToJson_first_fan :
    (Resolves [⟨text "Fans", some 0⟩, ⟨text "Status.State", none⟩]
      (.object [(text "Fans", .array [.object [(text "Status.State", .boolean true)]])])) ∧
    ∃ value : Json,
      Fits [⟨text "Fan-Slots", some 0⟩] value ∧ ¬ Resolves [⟨text "Fan-Slots", some 0⟩] value := by
  constructor
  · have legible : Legible [⟨text "Fans", some 0⟩, ⟨text "Status.State", none⟩] := by
      refine ⟨?_, ?_, ?_⟩
      · intro step member
        rcases List.mem_cons.mp member with rfl | later
        · exact ⟨by decide, by decide⟩
        · cases List.mem_singleton.mp later
          exact (by decide : splitNodeNameIfArrayType (text "Status.State") = none)
      · intro step member unindexed
        cases List.mem_singleton.mp member
        cases unindexed
      · exact trimmed_of_visible (by decide) (forall_of_none (by decide))
    apply ((resolveRedPathNodeToJson_resolves_iff _).2.1 legible _).mpr
    intro first isFirst
    cases isFirst
    intro second isSecond
    cases isSecond
    trivial
  · exact (resolveRedPathNodeToJson_resolves_iff _).2.2 (List.cons_ne_nil _ _) (by decide)

/-- A fan of an empty list of fans is null. -/
theorem resolveRedPathNodeToJson_no_fan :
    ¬ ∀ (steps : List PathStep) (value : Json),
      (∀ step ∈ steps, step.name ≠ []) -> Resolves steps value := by
  intro always
  have resolves := always [⟨text "Fans", some 0⟩] (.object [(text "Fans", .array [])]) (by decide)
  rcases resolves with ⟨status, impossible⟩
  cases impossible

end Ecclesia.PathUtil
