import Ecclesia.Library.Visit
import Ecclesia.Redfish.Interface

namespace Ecclesia

/-!
# Chains of indices

An index chain is evaluated from a variant: a name leads to a property, a number to an
element, and `Each` to all elements of an iterable in turn.  A callback is called with each
object at the end of the chain, until it says stop.
-/

/-- `RedfishIterReturnValue`: `kContinue` or `kStop`. -/
abbrev RedfishIterReturnValue := Signal

inductive ServiceRootUri where
  | redfish
  | google
deriving DecidableEq

/-- A resource tree that does not change: the answers of the service and of the views that
it returns. -/
structure RedfishTree (Object Iterable : Type) where
  getRoot : GetParams -> ServiceRootUri -> RedfishVariant Object Iterable
  property : Object -> Text -> RedfishVariant Object Iterable
  get : Object -> Text -> GetParams -> RedfishVariant Object Iterable
  getUriString : Object -> Option Text
  size : Iterable -> Nat
  element : Iterable -> Nat -> RedfishVariant Object Iterable

/-- `RedfishVariant::IndexType` -/
inductive IndexType where
  | name (property : Text)
  | position (index : Nat)
  | each
  | getWithArgs (name : Text) (args : GetParams)

variable {Object Iterable State : Type}

variable (tree : RedfishTree Object Iterable) (variant : RedfishVariant Object Iterable)

def RedfishVariant.indexObject (index : Object -> RedfishVariant Object Iterable)
    : RedfishVariant Object Iterable :=
  if !variant.status.isOk then .ofStatus variant.status
  else
    match variant.object with
    | some object => index object
    | none => .ofStatus (.internal (text "not a RedfishObject"))

/-- `operator[](IndexGetWithArgs)` -/
def RedfishTree.indexGetWithArgs (name : Text) (args : GetParams) :
    RedfishVariant Object Iterable :=
  variant.indexObject fun object => tree.get object name args

/-- `operator[](absl::string_view)` -/
def RedfishTree.indexName (property : Text) : RedfishVariant Object Iterable :=
  variant.indexObject fun object => tree.property object property

/-- `operator[](size_t)` -/
def RedfishTree.indexPosition (index : Nat) : RedfishVariant Object Iterable :=
  if !variant.status.isOk then .ofStatus variant.status
  else
    match variant.iterable with
    | some iterable => tree.element iterable index
    | none => .ofStatus (.internal (text "not a RedfishIterable"))

/-- The elements that the iterator of an iterable goes through. -/
def RedfishTree.elements (iterable : Iterable) :
    List (RedfishVariant Object Iterable) :=
  (List.range (tree.size iterable)).map (tree.element iterable)

def IndexType.isEach : IndexType -> Bool
  | .each => true
  | _ => false

def RedfishQueryParamExpand.incrementLevels (expand : RedfishQueryParamExpand) :
    RedfishQueryParamExpand :=
  { expand with levels := expand.levels + 1 }

/-- The levels of an expand that adjusts them cover the rest of the chain. -/
def adjustLevels (args : GetParams) (rest : List IndexType) : GetParams :=
  match args.expand with
  | none => args
  | some expand =>
    if args.autoAdjustLevels then
      { args with
        expand := some (rest.foldl
          (fun grown restIndex => if restIndex.isEach then grown.incrementLevels else grown)
          expand) }
    else args

/-- `IndexHelper::Do` -/
def RedfishTree.indexHelperDo (tree : RedfishTree Object Iterable)
    (what : Object -> State -> RedfishIterReturnValue × State) :
    List IndexType -> RedfishVariant Object Iterable -> State -> RedfishIterReturnValue × State
  | [], root, state =>
    match root.object with
    | some object => what object state
    | none => (.proceed, state)
  | .getWithArgs name args :: rest, root, state =>
    tree.indexHelperDo what rest (tree.indexGetWithArgs root name (adjustLevels args rest)) state
  | .name property :: rest, root, state =>
    tree.indexHelperDo what rest (tree.indexName root property) state
  | .position index :: rest, root, state =>
    tree.indexHelperDo what rest (tree.indexPosition root index) state
  | .each :: rest, root, state =>
    match root.iterable with
    | none => (.proceed, state)
    | some iterable => visitUntil (tree.indexHelperDo what rest) (tree.elements iterable) state

/-- The objects at the end of a chain, in depth-first order. -/
def RedfishTree.matched (tree : RedfishTree Object Iterable) :
    List IndexType -> RedfishVariant Object Iterable -> List Object
  | [], root => root.object.toList
  | .getWithArgs name args :: rest, root =>
    tree.matched rest (tree.indexGetWithArgs root name (adjustLevels args rest))
  | .name property :: rest, root => tree.matched rest (tree.indexName root property)
  | .position index :: rest, root => tree.matched rest (tree.indexPosition root index)
  | .each :: rest, root =>
    match root.iterable with
    | none => []
    | some iterable => (tree.elements iterable).flatMap (tree.matched rest)

/-- The recursion calls the callback with the objects that the chain matches, until it says stop. -/
lemma RedfishTree.indexHelperDo_eq (what : Object -> State -> RedfishIterReturnValue × State)
    (indices : List IndexType) :
    ∀ root state,
      tree.indexHelperDo what indices root state = visitUntil what (tree.matched indices root) state := by
  induction indices with
  | nil =>
    intro root state
    rw [indexHelperDo, matched]
    cases root.object with
    | none => rfl
    | some object =>
      simp only [Option.toList, visitUntil]
      rcases what object state with ⟨signal, after⟩
      cases signal with
      | proceed => rfl
      | stop => rfl
  | cons index rest ih =>
    intro root state
    cases index with
    | name property => exact ih _ state
    | position position => exact ih _ state
    | getWithArgs name args => exact ih _ state
    | each =>
      rw [indexHelperDo, matched]
      cases root.iterable with
      | none => rfl
      | some iterable =>
        have same : tree.indexHelperDo what rest =
            fun entry => visitUntil what (tree.matched rest entry) := by
          funext entry after
          exact ih entry after
        rw [same, visitUntil_flatMap]

end Ecclesia
