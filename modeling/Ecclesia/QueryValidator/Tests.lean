import Ecclesia.Library.Assoc
import Ecclesia.Query.Proto

namespace Ecclesia.QueryValidator

open Absl

/-!
# Tests of queries

Before a query is used it is tested for ids that conflict and for predicates of another form
than the one that is allowed.  A test goes through the subqueries and adds an issue for
everything that it finds.

The definitions follow `query_validator.cc`.
-/

/-- `Issue::Type`, as far as the tests are about errors. -/
inductive IssueType where
  | conflictingIds
  | disallowedPredicate
deriving DecidableEq

structure Issue where
  type : IssueType
  message : Text
  path : Text
deriving DecidableEq

def kTopLevelQueryId : Text := text "TopLevelQuery"

def rootPropertyMessage (subqueryId rootId : Text) : Text :=
  text "Subquery id " ++ subqueryId ++ text " conflicts with a property in the root subquery " ++
    rootId

def duplicateIdMessage (subqueryId : Text) : Text :=
  text "Multiple subqueries found with the subquery id: " ++ subqueryId

def duplicatePropertyMessage (effectiveName : Text) : Text :=
  text "Multiple properties with same name detected: " ++ effectiveName

/-- `CheckForSubqueryIdRootPropertyConflicts`: the issues that it adds. -/
def checkForSubqueryIdRootPropertyConflicts (subquery : Subquery)
    (subqueryIdToPropertyNames : HashMap Text (HashSet Text)) (path : Text) : List Issue :=
  subquery.rootSubqueryIds.filterMap fun rootId =>
    match subqueryIdToPropertyNames.lookup rootId with
    | none => none
    | some names =>
      if subquery.subqueryId ∈ names.elements then
        some ⟨.conflictingIds, rootPropertyMessage subquery.subqueryId rootId, path⟩
      else none

/-- The root ids of a subquery, which is the top level id if it has none. -/
def rootIdsOrTopLevel (subquery : Subquery) : List Text :=
  if subquery.rootSubqueryIds.isEmpty then [kTopLevelQueryId] else subquery.rootSubqueryIds

/-- One turn of the loop of `CheckForDuplicateSubqueryIds`. -/
def checkRootId (subqueryId path : Text) (state : HashMap Text (HashSet Text) × List Issue)
    (rootId : Text) : HashMap Text (HashSet Text) × List Issue :=
  match state.1.lookup rootId with
  | none => (state.1.assign rootId (HashSet.empty.insert subqueryId), state.2)
  | some children =>
    if subqueryId ∈ children.elements then
      (state.1, state.2 ++ [⟨.conflictingIds, duplicateIdMessage subqueryId, path⟩])
    else (state.1.assign rootId (children.insert subqueryId), state.2)

def checkForDuplicateSubqueryIds (subquery : Subquery) (path : Text)
    (state : HashMap Text (HashSet Text) × List Issue) : HashMap Text (HashSet Text) × List Issue :=
  (rootIdsOrTopLevel subquery).foldl (checkRootId subquery.subqueryId path) state

def effectiveName (property : RedfishProperty) : Text :=
  if property.name.isEmpty then property.property else property.name

/-- One turn of the loop over the properties. -/
def checkPropertyName (path : Text) (state : HashSet Text × List Issue)
    (property : RedfishProperty) : HashSet Text × List Issue :=
  (state.1.insert (effectiveName property),
    if effectiveName property ∈ state.1.elements then
      state.2 ++ [⟨.conflictingIds, duplicatePropertyMessage (effectiveName property), path⟩]
    else state.2)

/-- The variables of `TestForConflictingIds`. -/
structure IdState where
  subqueryIdToPropertyNames : HashMap Text (HashSet Text)
  parentToChildSubqueries : HashMap Text (HashSet Text)
  errors : List Issue

/-- One turn of the loop over the subqueries. -/
def checkSubquery (path : Text) (state : IdState) (subquery : Subquery) : IdState :=
  let duplicates :=
    checkForDuplicateSubqueryIds subquery path (state.parentToChildSubqueries, state.errors)
  let properties := subquery.properties.foldl (checkPropertyName path) (.empty, duplicates.2)
  -- An id that is there already keeps its names.
  let names := state.subqueryIdToPropertyNames.insert subquery.subqueryId properties.1
  { subqueryIdToPropertyNames := names
    parentToChildSubqueries := duplicates.1
    errors := properties.2 ++ checkForSubqueryIdRootPropertyConflicts subquery names path }

def testForConflictingIds (redpathQuery : DelliciusQuery) (path : Text) (errors : List Issue) :
    List Issue :=
  (redpathQuery.subquery.foldl (checkSubquery path) ⟨.empty, .empty, errors⟩).errors

/-- The operand of a comparator in `kPredicateRegex`. -/
def isPredicateOperand (operand : Text) : Bool :=
  match operand with
  | '$' :: variableName => !variableName.isEmpty && !variableName.contains '$'
  | value => !value.isEmpty && !value.contains '$'

/-- The characters of the first token in `kPredicateRegex`. -/
def isPredicateNameCharacter (c : Char) : Bool :=
  c != '$' && c != '<' && c != '>' && c != '='

/-- `kPredicateRegex`.  The first token may end in the exclamation mark of a comparator. -/
def matchesPredicateRegex (predicate : Text) : Bool :=
  let name := predicate.takeWhile isPredicateNameCharacter
  !name.isEmpty &&
    match predicate.dropWhile isPredicateNameCharacter with
    | [] => true
    | '$' :: _ => false
    | '=' :: operand => isPredicateOperand operand
    | _ :: '=' :: operand => isPredicateOperand operand || isPredicateOperand ('=' :: operand)
    | _ :: operand => isPredicateOperand operand

example : [text "ProcessorType=CPU", text "ServiceLabel", text "Id=$variable", text "Reading>=1.0",
    text "a!=b", text "$variable", text "Id=", text "$reading<1.0", text "$var1<=$var2"].map
      matchesPredicateRegex = [true, true, true, true, true, false, false, false, false] := by
  decide

/-- `RE2::GlobalReplace` of the logical operators by two slashes. -/
def replaceLogicalOperators : Text -> Text
  | [] => []
  | ' ' :: 'a' :: 'n' :: 'd' :: ' ' :: rest => '/' :: '/' :: replaceLogicalOperators rest
  | ' ' :: 'o' :: 'r' :: ' ' :: rest => '/' :: '/' :: replaceLogicalOperators rest
  | c :: rest => c :: replaceLogicalOperators rest

/-- `absl::StrSplit` at two slashes, with the piece so far. -/
def splitAtSlashes : Text -> Text -> List Text
  | piece, [] => [piece]
  | piece, '/' :: '/' :: rest => piece :: splitAtSlashes [] rest
  | piece, c :: rest => splitAtSlashes (piece ++ [c]) rest

/-- `ParsePredicate`, from the opening bracket or the start up to the closing one or the end. -/
def parsePredicate (predicate : Text) : List Text :=
  let predicates :=
    match predicate.dropWhile (fun c => c != '[') with
    | [] => predicate
    | _ :: inside => inside.takeWhile fun c => c != ']'
  splitAtSlashes [] (replaceLogicalOperators predicates)

def disallowedPredicateMessage (barePredicate redpath : Text) : Text :=
  text "Disallowed predicate: " ++ barePredicate ++ text " in redpath: " ++ redpath ++
    text ".\nTemplated query predicates must adhere to the format: <property name><comparator>$<variable name>, where <comparator> is any one of >, <, >=, <=, or ="

/-- The field `redpath` of a subquery, which is empty if another one is set. -/
def redpathOf (subquery : Subquery) : Text :=
  match subquery.resource with
  | .redpath redpath => redpath
  | _ => []

def disallowedPredicates (path : Text) (subquery : Subquery) : List Issue :=
  ((strSplit '/' (redpathOf subquery)).filter fun step => !step.isEmpty).flatMap fun step =>
    ((parsePredicate step).filter fun barePredicate => !matchesPredicateRegex barePredicate).map
      fun barePredicate =>
        ⟨.disallowedPredicate, disallowedPredicateMessage barePredicate (redpathOf subquery), path⟩

def testForDisallowedPredicates (redpathQuery : DelliciusQuery) (path : Text)
    (errors : List Issue) : List Issue :=
  errors ++ redpathQuery.subquery.flatMap (disallowedPredicates path)

def testForErrorLevelIssues (redpathQuery : DelliciusQuery) (path : Text) (errors : List Issue) :
    List Issue :=
  testForConflictingIds redpathQuery path (testForDisallowedPredicates redpathQuery path errors)

end Ecclesia.QueryValidator
