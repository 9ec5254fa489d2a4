import Ecclesia.Planner.Normalize
import Ecclesia.Query.Location

namespace Ecclesia.Planner

open List Option
open QueryValue (at?_append at?_cons at?_modify_append at?_nil mutableList mutableSubquery part?
  setPart subquery)

/-!
# The assembly of a result

Every value that `TryNormalize` builds is deposited in the result, below a value that was
built earlier on the same resource path or at the top.  A deposit remembers what the program
knew at that moment, and where the value went.  The results say for which sequences of
deposits nothing is lost and nothing is misplaced.
-/

variable {Spot : Type}

/-- A value that was built and stored, with what its context knew and the subqueries that ended on
the way to it. -/
structure Deposit (Spot : Type) where
  subqueryId : Text
  spot : Spot
  value : QueryValue
  results : List (Text × Location)
  path : List (Text × Spot)
  location : Location

def assemble (query : DelliciusQuery) (deposits : List (Deposit Spot)) : QueryResultData :=
  deposits.foldl (fun data deposit =>
    (storeQueryValue query deposit.subqueryId deposit.value deposit.results data).1) []

lemma assemble_snoc (query : DelliciusQuery) (deposits : List (Deposit Spot))
    (deposit : Deposit Spot) :
    assemble query (deposits ++ [deposit]) = (storeQueryValue query deposit.subqueryId
      deposit.value deposit.results (assemble query deposits)).1 := by
  rw [assemble, foldl_append]
  rfl

/-- The known results are the deposits on the way: the nearest one, and those on the way to
it. -/
inductive Linked (deposits : List (Deposit Spot)) :
    List (Text × Location) -> List (Text × Spot) -> Prop where
  | nil : Linked deposits [] []
  | cons {deposit : Deposit Spot} (member : deposit ∈ deposits)
      (linked : Linked deposits deposit.results deposit.path) :
      Linked deposits ((deposit.subqueryId, deposit.location) :: deposit.results)
        ((deposit.subqueryId, deposit.spot) :: deposit.path)

/-- The deposits are made one after the other, as `TryNormalize` does. -/
inductive Recorded (query : DelliciusQuery) : List (Deposit Spot) -> Prop where
  | nil : Recorded query []
  | snoc {deposits : List (Deposit Spot)} {deposit : Deposit Spot}
      (recorded : Recorded query deposits)
      (linked : Linked deposits deposit.results deposit.path)
      (stored : deposit.location = (storeQueryValue query deposit.subqueryId deposit.value
        deposit.results (assemble query deposits)).2) :
      Recorded query (deposits ++ [deposit])

/-! ## What is promised -/

/-- The nearest result on the way whose subquery is a root subquery of the deposit's. -/
def Deposit.predecessor (query : DelliciusQuery) (deposit : Deposit Spot) : Option Location :=
  (deposit.results.find? fun entry =>
    ((findRootIds query deposit.subqueryId).getD []).contains entry.1).map Prod.snd

/-- What is found in the place of a value: a data set may have got more fields, every other
value is the same. -/
def Keeps (value found : QueryValue) : Prop :=
  match value with
  | .subquery own => ∃ fields, found = .subquery fields ∧
      ∀ name part, own.lookup name = some part -> fields.lookup name = some part
  | _ => found = value

/-- The value lies under its own id below the result of its predecessor, or at the top. -/
def Deposit.Placed (query : DelliciusQuery) (deposit : Deposit Spot) : Prop :=
  (∃ index, deposit.location = (deposit.predecessor query).getD [] ++
    [.field deposit.subqueryId, .element index]) ∨
  (deposit.value.hasRawData = true ∧ deposit.predecessor query ≠ none ∧
    deposit.location = (deposit.predecessor query).getD [] ++ [.field deposit.subqueryId])

def isKid (query : DelliciusQuery) (predecessor : Option Location) (subqueryId : Text)
    (deposit : Deposit Spot) : Bool :=
  deposit.predecessor query = predecessor && deposit.subqueryId = subqueryId

def countValues : QueryValue -> Nat
  | .list values => values.length
  | _ => 1

/-- The data set of a deposit with its own fields, or the top of the result. -/
def HasOwn (deposits : List (Deposit Spot)) (own : QueryResultData) : Option Location -> Prop
  | none => own = []
  | some root => ∃ deposit ∈ deposits, deposit.location = root ∧ deposit.value = .subquery own

/-- Every deposited value is in its place, once, and nothing else is in the data. -/
structure Assembled (query : DelliciusQuery) (deposits : List (Deposit Spot))
    (data : QueryResultData) : Prop where
  kept : ∀ deposit ∈ deposits, ∃ found,
    (QueryValue.subquery data).at? deposit.location = some found ∧ Keeps deposit.value found
  placed : ∀ deposit ∈ deposits, deposit.Placed query
  distinct : (deposits.map Deposit.location).Nodup
  counted : ∀ predecessor own subqueryId, HasOwn deposits own predecessor ->
    ∃ fields,
      (QueryValue.subquery data).at? (predecessor.getD []) = some (.subquery fields) ∧
      (deposits.countP (isKid query predecessor subqueryId) = 0 ->
        fields.lookup subqueryId = own.lookup subqueryId) ∧
      (deposits.countP (isKid query predecessor subqueryId) ≠ 0 -> ∃ found,
        fields.lookup subqueryId = some found ∧
          countValues found = deposits.countP (isKid query predecessor subqueryId))

/-- At every moment all values that were deposited so far are in place. -/
def Intact (query : DelliciusQuery) (deposits : List (Deposit Spot)) : Prop :=
  ∀ earlier, earlier <+: deposits -> Assembled query earlier (assemble query earlier)

/-- A deposit is regular: the first root subquery with a known result is the nearest one, a data set
without a field of the deposit's name, and the first deposit below it is not raw data. -/
structure RegularAt (query : DelliciusQuery) (deposits : List (Deposit Spot))
    (deposit : Deposit Spot) : Prop where
  nearest : findRootResult query deposit.subqueryId deposit.results = deposit.predecessor query
  dataSet : ∀ root, deposit.predecessor query = some root -> ∃ own,
    HasOwn deposits own (some root) ∧ own.lookup deposit.subqueryId = none
  notRaw : ∀ root first, deposit.predecessor query = some root ->
    deposits.find? (isKid query (some root) deposit.subqueryId) = some first ->
      first.value.hasRawData = false

def Regular (query : DelliciusQuery) (deposits : List (Deposit Spot)) : Prop :=
  ∀ earlier deposit, earlier ++ [deposit] <+: deposits -> RegularAt query earlier deposit

/-! ## One deposit in the data -/

def addBelow (predecessor : Option Location) (name : Text) (value : QueryValue)
    (fields : QueryResultData) : QueryResultData × Location :=
  match predecessor with
  | none => addToList name value fields
  | some _ => addToRootResult name value fields

lemma modify_subquery (data fields : QueryResultData) (root : Location) :
    ∃ changed, (subquery data).modify (fun _ => .subquery fields) root = .subquery changed := by
  cases root with
  | nil => exact ⟨fields, rfl⟩
  | cons selector rest =>
    cases selector with
    | field name =>
      simp only [QueryValue.modify]
      cases data.lookup name with
      | none => exact ⟨data, rfl⟩
      | some part => exact ⟨_, rfl⟩
    | element index => exact ⟨data, rfl⟩

variable {data fields : QueryResultData} {predecessor : Option Location}

lemma storeQueryValue_eq (query : DelliciusQuery) (subqueryId : Text) (value : QueryValue)
    {results : List (Text × Location)}
    (found : findRootResult query subqueryId results = predecessor)
    (atRoot : ((subquery data).at? (predecessor.getD [])).map mutableSubquery = some fields) :
    let stored := storeQueryValue query subqueryId value results data
    let added := addBelow predecessor subqueryId value fields
    subquery stored.1 = (subquery data).modify (fun _ => .subquery added.1) (predecessor.getD []) ∧
    stored.2 = predecessor.getD [] ++ added.2 := by
  unfold storeQueryValue
  cases predecessor with
  | none =>
    simp only [found]
    cases atRoot
    exact ⟨rfl, rfl⟩
  | some root =>
    simp only [found, getD_some] at atRoot ⊢
    rw [atRoot]
    rcases modify_subquery data (addBelow (some root) subqueryId value fields).1 root with
      ⟨changed, isChanged⟩
    refine ⟨?_, rfl⟩
    change subquery (((subquery data).modify
      (fun _ => .subquery (addBelow (some root) subqueryId value fields).1)
        root).mutableSubquery) = _
    rw [isChanged]
    rfl

/-- A value is added under a name: at the end of the list there, in a new list, or by
itself. -/
inductive Adds (name : Text) (value : QueryValue) (fields : QueryResultData) :
    QueryValue -> Location -> Prop where
  | toList {values : List QueryValue} (found : fields.lookup name = some (.list values)) :
      Adds name value fields (.list (values ++ [value])) [.element values.length]
  | newList (absent : fields.lookup name = none) :
      Adds name value fields (.list [value]) [.element 0]
  | alone (absent : fields.lookup name = none) (raw : value.hasRawData = true) :
      Adds name value fields value []

lemma addToList_eq (name : Text) (value : QueryValue) (fields : QueryResultData) :
    addToList name value fields =
      (setField name (.list (((fields.lookup name).map mutableList).getD [] ++ [value])) fields,
      [.field name, .element (((fields.lookup name).map mutableList).getD []).length]) := rfl

variable {name : Text}

lemma addBelow_adds (predecessor : Option Location) (value : QueryValue)
    (free : fields.lookup name = none ∨ ∃ values, fields.lookup name = some (.list values)) :
    ∃ new slot, Adds name value fields new slot ∧
      (slot = [] -> predecessor ≠ none) ∧
      addBelow predecessor name value fields = (setField name new fields, .field name :: slot) := by
  have listed : ∃ new slot, Adds name value fields new slot ∧ slot ≠ [] ∧
      addToList name value fields = (setField name new fields, .field name :: slot) := by
    rw [addToList_eq]
    rcases free with absent | ⟨values, found⟩
    · rw [absent]
      exact ⟨_, _, .newList absent, cons_ne_nil _ _, rfl⟩
    · rw [found]
      exact ⟨_, _, .toList found, cons_ne_nil _ _, rfl⟩
  cases predecessor with
  | none =>
    rcases listed with ⟨new, slot, adds, notAlone, isAdded⟩
    exact ⟨new, slot, adds, fun alone => absurd alone notAlone, isAdded⟩
  | some root =>
    unfold addBelow addToRootResult
    by_cases alone : ((fields.lookup name).isNone && value.hasRawData) = true
    · simp only [if_pos alone]
      rw [Bool.and_eq_true, isNone_iff_eq_none] at alone
      exact ⟨value, [], .alone alone.1 alone.2, fun _ => (nomatch ·), rfl⟩
    · simp only [if_neg alone]
      rcases listed with ⟨new, slot, adds, -, isAdded⟩
      exact ⟨new, slot, adds, fun _ => (nomatch ·), isAdded⟩

variable {value new : QueryValue} {slot : Location}

section

variable (adds : Adds name value fields new slot)

include adds

lemma Adds.found : new.at? slot = some value := by
  cases adds with
  | @toList values found =>
    rw [at?_cons, part?, getElem?_concat_length, bind_some, at?_nil]
  | newList absent => rw [at?_cons, part?, getElem?_cons_zero, bind_some, at?_nil]
  | alone absent raw => exact at?_nil value

lemma Adds.fresh : (subquery fields).at? (.field name :: slot) = none := by
  rw [at?_cons, part?]
  cases adds with
  | @toList values found =>
    rw [found, bind_some, at?_cons, part?, getElem?_eq_none (le_rfl), bind_none]
  | newList absent => rw [absent, bind_none]
  | alone absent raw => rw [absent, bind_none]

lemma Adds.keeps {rest : Location} {found : QueryValue}
    (before : (subquery fields).at? rest = some found) (inside : rest ≠ [])
    (notField : rest ≠ [.field name]) :
    (subquery (setField name new fields)).at? rest = some found := by
  cases rest with
  | nil => exact absurd rfl inside
  | cons selector rest =>
    cases selector with
    | element index => cases before
    | field key =>
      rw [at?_cons, part?] at before ⊢
      rw [lookup_setField]
      by_cases same : key = name
      · subst same
        rw [if_pos rfl, bind_some]
        cases adds with
        | @toList values isList =>
          rw [isList, bind_some] at before
          cases rest with
          | nil => exact absurd rfl notField
          | cons other rest =>
            cases other with
            | field _ => cases before
            | element index =>
              rw [at?_cons, part?] at before ⊢
              rcases bind_eq_some_iff.mp before with ⟨part, isPart, below⟩
              rw [getElem?_append_left (List.getElem?_eq_some_iff.mp isPart).1, isPart]
              exact below
        | newList absent =>
          rw [absent] at before
          cases before
        | alone absent raw =>
          rw [absent] at before
          cases before
      · rwa [if_neg same]

end

/-- What the data have of a subquery at a result: its own field, or the values deposited there. -/
def Counts (query : DelliciusQuery) (deposits : List (Deposit Spot)) (data own : QueryResultData)
    (predecessor : Option Location) (subqueryId : Text) : Prop :=
  ∃ fields, (QueryValue.subquery data).at? (predecessor.getD []) = some (.subquery fields) ∧
    (deposits.countP (isKid query predecessor subqueryId) = 0 ->
      fields.lookup subqueryId = own.lookup subqueryId) ∧
    (deposits.countP (isKid query predecessor subqueryId) ≠ 0 -> ∃ found,
      fields.lookup subqueryId = some found ∧
        countValues found = deposits.countP (isKid query predecessor subqueryId))

/-! ## A regular deposit -/

/-- Whatever lies below a deposit was put there under a name that its data set did not have. -/
def Nested (deposits : List (Deposit Spot)) : Prop :=
  ∀ upper ∈ deposits, ∀ lower ∈ deposits, ∀ selector rest,
    lower.location = upper.location ++ selector :: rest -> ∃ own name,
      upper.value = .subquery own ∧ selector = .field name ∧ own.lookup name = none

/-- A deposit is made at a data set that has its name free, or a list of deposits of its subquery.
-/
structure Grows (query : DelliciusQuery) (deposits : List (Deposit Spot))
    (data : QueryResultData) (deposit : Deposit Spot) (after own fields : QueryResultData)
    (new : QueryValue) (slot : Location) : Prop where
  hasOwn : HasOwn deposits own (deposit.predecessor query)
  free : own.lookup deposit.subqueryId = none
  atRoot : (QueryValue.subquery data).at? ((deposit.predecessor query).getD []) =
    some (.subquery fields)
  adds : Adds deposit.subqueryId deposit.value fields new slot
  counts : (fields.lookup deposit.subqueryId = none ∧
      deposits.countP (isKid query (deposit.predecessor query) deposit.subqueryId) = 0) ∨
    ∃ values, fields.lookup deposit.subqueryId = some (.list values) ∧ values.length =
      deposits.countP (isKid query (deposit.predecessor query) deposit.subqueryId)
  alone : slot = [] -> deposit.predecessor query ≠ none
  changed : QueryValue.subquery after = (QueryValue.subquery data).modify
    (fun _ => .subquery (setField deposit.subqueryId new fields))
    ((deposit.predecessor query).getD [])
  location : deposit.location =
    (deposit.predecessor query).getD [] ++ .field deposit.subqueryId :: slot

variable {query : DelliciusQuery} {deposit : Deposit Spot}

variable {subqueryId : Text}

lemma isKid_iff : isKid query predecessor subqueryId deposit = true ↔
      deposit.predecessor query = predecessor ∧ deposit.subqueryId = subqueryId := by
  rw [isKid, Bool.and_eq_true, decide_eq_true_iff, decide_eq_true_iff]

variable {deposits : List (Deposit Spot)}

variable {first : Deposit Spot}

section

variable (assembled : Assembled query deposits data)

include assembled

lemma Assembled.location_ne_nil (member : deposit ∈ deposits) : deposit.location ≠ [] := by
  rcases assembled.placed deposit member with ⟨index, isPlaced⟩ | ⟨-, -, isPlaced⟩
  · rw [isPlaced]
    exact append_ne_nil_of_right_ne_nil _ (cons_ne_nil _ _)
  · rw [isPlaced]
    exact append_ne_nil_of_right_ne_nil _ (cons_ne_nil _ _)

lemma Assembled.location_inj {second : Deposit Spot} (isFirst : first ∈ deposits)
    (isSecond : second ∈ deposits) (same : first.location = second.location) : first = second :=
  inj_on_of_nodup_map assembled.distinct isFirst isSecond same

lemma Assembled.own_unique {first second : QueryResultData}
    (isFirst : HasOwn deposits first predecessor) (isSecond : HasOwn deposits second predecessor) :
    first = second := by
  cases predecessor with
  | none => exact isFirst.trans isSecond.symm
  | some root =>
    rcases isFirst with ⟨one, isOne, atOne, ownOne⟩
    rcases isSecond with ⟨two, isTwo, atTwo, ownTwo⟩
    cases assembled.location_inj isOne isTwo (atOne.trans atTwo.symm)
    exact subquery.inj (ownOne.symm.trans ownTwo)

end

lemma element_ne_field {first second : Location} {other : Text} {index : Nat} :
    first ++ [Selector.field name, .element index] ≠ second ++ [.field other] := by
  intro same
  have last := congrArg getLast? same
  simp at last

section

variable (regular : RegularAt query deposits deposit) (assembled : Assembled query deposits data)

include regular assembled

/-- Where a regular deposit comes to, there is nothing under its name, or a list of earlier values.
-/
lemma RegularAt.room :
    ∃ own fields, HasOwn deposits own (deposit.predecessor query) ∧
      own.lookup deposit.subqueryId = none ∧
      (subquery data).at? ((deposit.predecessor query).getD []) = some (.subquery fields) ∧
      ((fields.lookup deposit.subqueryId = none ∧
          deposits.countP (isKid query (deposit.predecessor query) deposit.subqueryId) = 0) ∨
        ∃ values, fields.lookup deposit.subqueryId = some (.list values) ∧ values.length =
          deposits.countP (isKid query (deposit.predecessor query) deposit.subqueryId)) := by
  have owns : ∃ own, HasOwn deposits own (deposit.predecessor query) ∧
      own.lookup deposit.subqueryId = none := by
    cases known : deposit.predecessor query with
    | none => exact ⟨[], rfl, rfl⟩
    | some root => exact regular.dataSet root known
  rcases owns with ⟨own, hasOwn, free⟩
  rcases assembled.counted _ own deposit.subqueryId hasOwn with ⟨fields, atRoot, without, with_⟩
  refine ⟨own, fields, hasOwn, free, atRoot, ?_⟩
  by_cases none : deposits.countP (isKid query (deposit.predecessor query) deposit.subqueryId) = 0
  · exact .inl ⟨(without none).trans free, none⟩
  · rcases with_ none with ⟨found, isFound, counted⟩
    -- The first deposit of the subquery is not alone under the name: there is a list.
    cases first : deposits.find? (isKid query (deposit.predecessor query) deposit.subqueryId) with
    | none =>
      rw [find?_eq_none] at first
      exact absurd (countP_eq_zero.mpr first) none
    | some kid =>
      have member := mem_of_find?_eq_some first
      rcases isKid_iff.mp (find?_some first) with ⟨sameRoot, sameId⟩
      rcases assembled.placed kid member with ⟨index, isPlaced⟩ | ⟨raw, below, -⟩
      · rcases assembled.kept kid member with ⟨value, isKept, -⟩
        rw [isPlaced, sameRoot, sameId, at?_append, atRoot, bind_some,
          at?_cons, part?, isFound] at isKept
        cases found with
        | list values => exact .inr ⟨values, isFound, counted⟩
        | _ => cases isKept
      · rcases ne_none_iff_exists'.mp below with ⟨root, isRoot⟩
        have known : deposit.predecessor query = some root := sameRoot.symm.trans isRoot
        rw [known] at first
        rw [regular.notRaw root kid known first] at raw
        cases raw

lemma RegularAt.grows
    (stored : deposit.location = (storeQueryValue query deposit.subqueryId deposit.value
      deposit.results data).2) :
    ∃ own fields new slot, Grows query deposits data deposit
      (storeQueryValue query deposit.subqueryId deposit.value deposit.results data).1 own fields
        new slot := by
  rcases regular.room assembled with ⟨own, fields, hasOwn, free, atRoot, counts⟩
  have isFree : fields.lookup deposit.subqueryId = none ∨
      ∃ values, fields.lookup deposit.subqueryId = some (.list values) := by
    rcases counts with ⟨absent, -⟩ | ⟨values, isList, -⟩
    · exact .inl absent
    · exact .inr ⟨values, isList⟩
  rcases addBelow_adds (deposit.predecessor query) deposit.value isFree with
    ⟨new, slot, adds, alone, added⟩
  have isRoot : ((subquery data).at? ((deposit.predecessor query).getD [])).map
      mutableSubquery = some fields := by
    rw [atRoot]
    rfl
  have effect := storeQueryValue_eq query deposit.subqueryId deposit.value regular.nearest isRoot
  simp only [added] at effect
  exact ⟨own, fields, new, slot, hasOwn, free, atRoot, adds, counts, alone, effect.1,
    stored.trans effect.2⟩

end

lemma Keeps.refl (value : QueryValue) : Keeps value value := by
  cases value with
  | subquery fields => exact ⟨fields, rfl, fun _ _ isPart => isPart⟩
  | _ => rfl

lemma Keeps.of_raw {found : QueryValue} (keeps : Keeps value found)
    (raw : value.hasRawData = true) : found = value := by
  cases value with
  | subquery fields => cases raw
  | _ => exact keeps

lemma location_cases (root location : Location) :
    (∃ rest, location = root ++ rest) ∨
      (∃ selector rest, root = location ++ selector :: rest) ∨
      (¬ root <+: location ∧ ¬ location <+: root) := by
  by_cases below : root <+: location
  · rcases below with ⟨rest, isBelow⟩
    exact .inl ⟨rest, isBelow.symm⟩
  · by_cases above : location <+: root
    · rcases above with ⟨rest, isAbove⟩
      cases rest with
      | nil =>
        rw [append_nil] at isAbove
        exact absurd (isAbove ▸ prefix_rfl) below
      | cons selector rest => exact .inr (.inl ⟨selector, rest, isAbove.symm⟩)
    · exact .inr (.inr ⟨below, above⟩)

variable {name : Text} {location : Location}

section

variable {query : DelliciusQuery} {deposits : List (Deposit Spot)} {data : QueryResultData}
  {deposit : Deposit Spot} {after own fields : QueryResultData} {new : QueryValue}
  {slot : Location}

variable {value : QueryValue} {predecessor : Option Location}

lemma Adds.slot_cases (adds : Adds name value fields new slot) :
    slot = [] ∧ value.hasRawData = true ∨ ∃ index, slot = [.element index] := by
  cases adds with
  | toList found => exact .inr ⟨_, rfl⟩
  | newList absent => exact .inr ⟨0, rfl⟩
  | alone absent raw => exact .inl ⟨rfl, raw⟩

lemma countValues_modify {old changed : QueryResultData}
    (found : value.at? location = some (.subquery old)) :
    countValues (value.modify (fun _ => .subquery changed) location) = countValues value := by
  cases location with
  | nil =>
    cases found
    rfl
  | cons selector rest =>
    rw [at?_cons] at found
    rcases bind_eq_some_iff.mp found with ⟨part, isPart, -⟩
    rw [QueryValue.modify_cons isPart]
    cases value <;> cases selector <;> try cases isPart
    · rfl
    · simp only [setPart, countValues, length_set]

lemma Adds.countValues_new {count : Nat} (adds : Adds name value fields new slot)
    (counts : (fields.lookup name = none ∧ count = 0) ∨
      ∃ values, fields.lookup name = some (.list values) ∧ values.length = count) :
    countValues new = count + 1 := by
  cases adds with
  | @toList values found =>
    rcases counts with ⟨absent, -⟩ | ⟨others, isList, counted⟩
    · rw [found] at absent
      cases absent
    · rw [found] at isList
      cases isList
      rw [countValues, length_append, length_singleton, counted]
  | newList absent =>
    rcases counts with ⟨-, rfl⟩ | ⟨others, isList, -⟩
    · rfl
    · rw [absent] at isList
      cases isList
  | alone absent raw =>
    rcases counts with ⟨-, rfl⟩ | ⟨others, isList, -⟩
    · cases new <;> first | rfl | cases raw
    · rw [absent] at isList
      cases isList

lemma countP_snoc_other
    (other : ¬ (deposit.predecessor query = predecessor ∧ deposit.subqueryId = subqueryId)) :
    (deposits ++ [deposit]).countP (isKid query predecessor subqueryId) =
      deposits.countP (isKid query predecessor subqueryId) := by
  rw [countP_append, countP_singleton, if_neg (fun isOne => other (isKid_iff.mp isOne)),
    Nat.add_zero]

variable (grows : Grows query deposits data deposit after own fields new slot)

include grows

lemma Grows.fresh : (subquery data).at? deposit.location = none := by
  rw [grows.location, at?_append, grows.atRoot, bind_some, grows.adds.fresh]

lemma Grows.found : (subquery after).at? deposit.location = some deposit.value := by
  rw [grows.location, grows.changed, at?_modify_append grows.atRoot,
    at?_cons, part?, lookup_setField, if_pos rfl, bind_some,
    grows.adds.found]

lemma Grows.above {rest : Location} {selector : Selector} {upper : QueryResultData}
    (isUpper : (subquery data).at? location = some (.subquery upper))
    (isAbove : (deposit.predecessor query).getD [] = location ++ selector :: rest) :
    ∃ name part, selector = .field name ∧ upper.lookup name = some part ∧
      part.at? rest = some (.subquery fields) ∧
      (subquery after).at? location = some (.subquery (setField name
        (part.modify (fun _ => .subquery (setField deposit.subqueryId new fields)) rest)
          upper)) := by
  have atRoot := grows.atRoot
  have deeper := atRoot
  rw [isAbove, at?_append, isUpper, bind_some, at?_cons] at deeper
  rcases bind_eq_some_iff.mp deeper with ⟨part, isPart, below⟩
  cases selector with
  | element index => cases isPart
  | field name =>
    refine ⟨name, part, rfl, isPart, below, ?_⟩
    rw [isAbove] at atRoot
    rw [grows.changed, isAbove, QueryValue.at?_modify_of_append atRoot, isUpper,
      map_some, QueryValue.modify_field isPart]

lemma Grows.at_root :
    (subquery after).at? ((deposit.predecessor query).getD []) =
      some (.subquery (setField deposit.subqueryId new fields)) := by
  have below := at?_modify_append grows.atRoot
    (fun _ => .subquery (setField deposit.subqueryId new fields)) []
  rwa [append_nil, <- grows.changed] at below

lemma Grows.placed : deposit.Placed query := by
  unfold Deposit.Placed
  rw [grows.location]
  rcases grows.adds.slot_cases with ⟨rfl, raw⟩ | ⟨index, rfl⟩
  · exact .inr ⟨raw, grows.alone rfl, rfl⟩
  · exact .inl ⟨index, rfl⟩

lemma Grows.parent (below : (deposit.predecessor query).getD [] ≠ []) :
    ∃ parent ∈ deposits,
      (deposit.predecessor query).getD [] = parent.location ∧ parent.value = .subquery own := by
  have hasOwn := grows.hasOwn
  cases known : deposit.predecessor query with
  | none =>
    rw [known] at below
    exact absurd rfl below
  | some root =>
    rw [known] at hasOwn
    rcases hasOwn with ⟨parent, isParent, atParent, ownParent⟩
    exact ⟨parent, isParent, atParent.symm, ownParent⟩

variable (assembled : Assembled query deposits data)
  {other : Deposit Spot} {held : QueryResultData} {subqueryId : Text}

include assembled

lemma Grows.not_alone (member : other ∈ deposits) :
    other.location ≠ (deposit.predecessor query).getD [] ++ [.field deposit.subqueryId] := by
  intro same
  rcases assembled.placed other member with ⟨index, isPlaced⟩ | ⟨raw, -, -⟩
  · exact element_ne_field (isPlaced.symm.trans same)
  · rcases assembled.kept other member with ⟨found, isFound, keeps⟩
    rw [same, at?_append, grows.atRoot, bind_some, at?_cons, part?] at isFound
    rcases grows.counts with ⟨absent, -⟩ | ⟨values, isList, -⟩
    · rw [absent] at isFound
      cases isFound
    · rw [isList] at isFound
      rw [<- keeps.of_raw raw, <- some.inj isFound] at raw
      cases raw

lemma Grows.at?_same (member : other ∈ deposits)
    (notAbove : ¬ other.location <+: (deposit.predecessor query).getD []) :
    (subquery after).at? other.location = (subquery data).at? other.location := by
  rcases location_cases ((deposit.predecessor query).getD []) other.location with
    ⟨rest, below⟩ | ⟨selector, rest, above⟩ | ⟨apart, apart'⟩
  · rcases assembled.kept other member with ⟨found, isFound, -⟩
    have inside : rest ≠ [] := by
      rintro rfl
      rw [append_nil] at below
      exact notAbove (below ▸ prefix_rfl)
    have notField : rest ≠ [.field deposit.subqueryId] := by
      rintro rfl
      exact grows.not_alone assembled member below
    rw [isFound]
    rw [below, at?_append, grows.atRoot] at isFound
    rw [below, grows.changed, at?_modify_append grows.atRoot]
    exact grows.adds.keeps isFound inside notField
  · exact absurd (above ▸ prefix_append _ _) notAbove
  · rw [grows.changed, QueryValue.at?_modify_apart grows.atRoot apart apart']

lemma Grows.kept (nested : Nested deposits) (member : other ∈ deposits) : ∃ found,
      (subquery after).at? other.location = some found ∧ Keeps other.value found := by
  rcases assembled.kept other member with ⟨found, isFound, keeps⟩
  by_cases above : other.location <+: (deposit.predecessor query).getD []
  · rcases above with ⟨rest, isAbove⟩
    -- Something is added at this deposit or below it, so that it is a data set.
    have hasOwn := grows.hasOwn
    cases known : deposit.predecessor query with
    | none =>
      rw [known] at isAbove
      exact absurd (append_eq_nil_iff.mp isAbove).1 (assembled.location_ne_nil member)
    | some root =>
      rw [known] at hasOwn
      rcases hasOwn with ⟨parent, isParent, atParent, ownParent⟩
      have isRoot : (deposit.predecessor query).getD [] = parent.location := by
        rw [known, getD_some, atParent]
      cases rest with
      | nil =>
        rw [append_nil] at isAbove
        cases assembled.location_inj member isParent (isAbove.trans isRoot)
        rw [isAbove] at isFound ⊢
        cases isFound.symm.trans grows.atRoot
        refine ⟨_, grows.at_root, ?_⟩
        rw [ownParent] at keeps ⊢
        rcases keeps with ⟨same, isSame, kept⟩
        cases isSame
        refine ⟨_, rfl, ?_⟩
        intro name part isPart
        have differs : name ≠ deposit.subqueryId := by
          rintro rfl
          rw [grows.free] at isPart
          cases isPart
        rw [lookup_setField, if_neg differs]
        exact kept name part isPart
      | cons selector rest =>
        rcases nested other member parent isParent selector rest
          (isRoot.symm.trans isAbove.symm) with ⟨ownOther, name, isData, rfl, free⟩
        rw [isData] at keeps ⊢
        rcases keeps with ⟨fieldsOther, rfl, kept⟩
        rcases grows.above isFound isAbove.symm with ⟨name', part, same, isPart, -, found⟩
        cases same
        refine ⟨_, found, _, rfl, ?_⟩
        intro key value isValue
        have differs : key ≠ name := by
          rintro rfl
          rw [free] at isValue
          cases isValue
        rw [lookup_setField, if_neg differs]
        exact kept key value isValue
  · exact ⟨found, (grows.at?_same assembled member above).trans isFound, keeps⟩

lemma Grows.nested (nested : Nested deposits) : Nested (deposits ++ [deposit]) := by
  intro upper isUpper lower isLower selector rest isBelow
  rw [mem_append, mem_singleton] at isUpper isLower
  rcases isUpper with oldUpper | rfl
  · rcases isLower with oldLower | rfl
    · exact nested upper oldUpper lower oldLower selector rest isBelow
    · rw [grows.location] at isBelow
      have nonempty := assembled.location_ne_nil oldUpper
      rcases location_cases ((lower.predecessor query).getD []) upper.location with
        ⟨between, isBetween⟩ | ⟨other, between, isAbove⟩ | ⟨apart, apart'⟩
      · rw [isBetween, append_assoc, append_cancel_left_eq] at isBelow
        cases between with
        | nil =>
          rw [append_nil] at isBetween
          rcases grows.parent (isBetween ▸ nonempty) with ⟨parent, isParent, atParent, ownParent⟩
          cases assembled.location_inj oldUpper isParent (isBetween.trans atParent)
          cases isBelow
          exact ⟨own, _, ownParent, rfl, grows.free⟩
        | cons first between =>
          rcases cons_eq_cons.mp isBelow with ⟨rfl, inSlot⟩
          cases between with
          | nil => exact absurd isBetween (grows.not_alone assembled oldUpper)
          | cons second between =>
            rcases grows.adds.slot_cases with ⟨rfl, -⟩ | ⟨index, rfl⟩
            · cases inSlot
            · have short := congrArg List.length inSlot
              simp at short
      · have below : (lower.predecessor query).getD [] ≠ [] := by
          rw [isAbove]
          exact append_ne_nil_of_right_ne_nil _ (cons_ne_nil _ _)
        rcases grows.parent below with ⟨parent, isParent, atParent, -⟩
        rw [isAbove, append_assoc, append_cancel_left_eq] at isBelow
        rw [<- (cons_eq_cons.mp isBelow).1]
        exact nested upper oldUpper parent isParent other between (atParent.symm.trans isAbove)
      · rcases prefix_or_prefix_of_prefix (prefix_append _ _)
          (isBelow ▸ prefix_append upper.location (selector :: rest)) with before | before
        · exact absurd before apart
        · exact absurd before apart'
  · rcases isLower with oldLower | rfl
    · rcases assembled.kept lower oldLower with ⟨found, isFound, -⟩
      rw [isBelow, at?_append, grows.fresh] at isFound
      cases isFound
    · have longer := congrArg List.length isBelow
      simp at longer

lemma Grows.countP_below (subqueryId : Text) :
    (deposits ++ [deposit]).countP (isKid query (some deposit.location) subqueryId) = 0 := by
  have noneBelow : ∀ other ∈ deposits ++ [deposit], other.Placed query ->
      other.predecessor query ≠ some deposit.location := by
    intro other member placed below
    have isBelow : ∃ selector rest, other.location = deposit.location ++ selector :: rest := by
      rcases placed with ⟨index, isPlaced⟩ | ⟨-, -, isPlaced⟩
      · rw [below] at isPlaced
        exact ⟨_, _, isPlaced⟩
      · rw [below] at isPlaced
        exact ⟨_, _, isPlaced⟩
    rcases isBelow with ⟨selector, rest, isBelow⟩
    rw [mem_append, mem_singleton] at member
    rcases member with old | rfl
    · rcases assembled.kept other old with ⟨found, isFound, -⟩
      rw [isBelow, at?_append, grows.fresh] at isFound
      cases isFound
    · have longer := congrArg List.length isBelow
      simp at longer
  rw [countP_eq_zero]
  intro other member isOne
  refine noneBelow other member ?_ (isKid_iff.mp isOne).1
  rw [mem_append, mem_singleton] at member
  rcases member with old | rfl
  · exact assembled.placed other old
  · exact grows.placed

lemma Grows.counted_above (hasHeld : HasOwn deposits held predecessor) {selector : Selector}
    {rest : Location}
    (isAbove : (deposit.predecessor query).getD [] = predecessor.getD [] ++ selector :: rest)
    (free : ∀ name, selector = .field name -> held.lookup name = none)
    (same : (deposits ++ [deposit]).countP (isKid query predecessor subqueryId) =
      deposits.countP (isKid query predecessor subqueryId)) :
    Counts query (deposits ++ [deposit]) after held predecessor subqueryId := by
  unfold Counts
  rw [same]
  rcases assembled.counted predecessor held subqueryId hasHeld with ⟨upper, isUpper, without, with_⟩
  rcases grows.above isUpper isAbove with ⟨name, part, isField, isPart, below, isChanged⟩
  refine ⟨_, isChanged, ?_, ?_⟩
  · intro none
    rw [lookup_setField]
    by_cases sameName : subqueryId = name
    · subst sameName
      rw [without none, free subqueryId isField] at isPart
      cases isPart
    · rw [if_neg sameName]
      exact without none
  · intro some
    rcases with_ some with ⟨found, isFound, counted⟩
    rw [lookup_setField]
    by_cases sameName : subqueryId = name
    · subst sameName
      rw [isPart] at isFound
      cases isFound
      exact ⟨_, if_pos rfl, (countValues_modify below).trans counted⟩
    · rw [if_neg sameName]
      exact ⟨found, isFound, counted⟩

lemma Grows.counted_root (hasHeld : HasOwn deposits held (deposit.predecessor query)) :
    Counts query (deposits ++ [deposit]) after held (deposit.predecessor query) subqueryId := by
  rcases assembled.counted _ held subqueryId hasHeld with ⟨upper, isUpper, without, with_⟩
  cases isUpper.symm.trans grows.atRoot
  refine ⟨_, grows.at_root, ?_⟩
  by_cases sameId : subqueryId = deposit.subqueryId
  · subst sameId
    have more : (deposits ++ [deposit]).countP
        (isKid query (deposit.predecessor query) deposit.subqueryId) =
        deposits.countP (isKid query (deposit.predecessor query) deposit.subqueryId) + 1 := by
      rw [countP_append, countP_singleton, if_pos (isKid_iff.mpr ⟨rfl, rfl⟩)]
    rw [more, lookup_setField, if_pos rfl]
    refine ⟨fun none => absurd none (Nat.succ_ne_zero _), fun _ => ⟨new, rfl, ?_⟩⟩
    exact grows.adds.countValues_new grows.counts
  · rw [countP_snoc_other (fun isOne => sameId isOne.2.symm), lookup_setField, if_neg sameId]
    exact ⟨without, with_⟩

lemma Grows.counted_old (nested : Nested deposits) (hasHeld : HasOwn deposits held predecessor) :
    Counts query (deposits ++ [deposit]) after held predecessor subqueryId := by
  by_cases same : deposit.predecessor query = predecessor
  · subst same
    exact grows.counted_root assembled hasHeld
  · have unchanged : (deposits ++ [deposit]).countP (isKid query predecessor subqueryId) =
        deposits.countP (isKid query predecessor subqueryId) :=
      countP_snoc_other fun isOne => same isOne.1
    cases predecessor with
    | none =>
      have below : (deposit.predecessor query).getD [] ≠ [] := by
        intro atTop
        rcases ne_none_iff_exists'.mp same with ⟨root, isRoot⟩
        have hasOwn := grows.hasOwn
        rw [isRoot] at hasOwn atTop
        rcases hasOwn with ⟨parent, isParent, atParent, -⟩
        exact assembled.location_ne_nil isParent (atParent.trans atTop)
      rcases exists_cons_of_ne_nil below with ⟨selector, rest, isAbove⟩
      refine grows.counted_above assembled hasHeld isAbove ?_ unchanged
      intro name _
      rw [hasHeld]
      rfl
    | some root =>
      have hasOwn := hasHeld
      rcases hasHeld with ⟨holder, isHolder, atHolder, ownHolder⟩
      by_cases above : holder.location <+: (deposit.predecessor query).getD []
      · rcases above with ⟨between, isAbove⟩
        have below : (deposit.predecessor query).getD [] ≠ [] := by
          intro atTop
          rw [atTop] at isAbove
          exact assembled.location_ne_nil isHolder (append_eq_nil_iff.mp isAbove).1
        rcases grows.parent below with ⟨parent, isParent, atParent, -⟩
        cases between with
        | nil =>
          rw [append_nil, atHolder] at isAbove
          cases known : deposit.predecessor query with
          | none => exact absurd (congrArg (·.getD []) known) below
          | some other =>
            rw [known] at isAbove
            exact absurd (known.trans (congrArg some isAbove.symm)) same
        | cons selector between =>
          rcases nested holder isHolder parent isParent selector between
            (atParent.symm.trans isAbove.symm) with ⟨own', name, isData, isField, free⟩
          cases ownHolder.symm.trans isData
          have atRoot : (deposit.predecessor query).getD [] =
              (some root).getD [] ++ selector :: between := by
            rw [getD_some, <- atHolder, isAbove]
          refine grows.counted_above assembled hasOwn atRoot ?_ unchanged
          intro other isOther
          cases isField.symm.trans isOther
          exact free
      · rcases assembled.counted (some root) held subqueryId hasOwn with
          ⟨upper, isUpper, without, with_⟩
        unfold Counts
        rw [unchanged]
        refine ⟨upper, ?_, without, with_⟩
        rw [<- atHolder] at isUpper ⊢
        exact (grows.at?_same assembled isHolder above).trans isUpper

/-- A regular deposit leaves everything in its place. -/
lemma Grows.stays_assembled (nested : Nested deposits) :
    Assembled query (deposits ++ [deposit]) after where
  kept := by
    intro other member
    rw [mem_append, mem_singleton] at member
    rcases member with old | rfl
    · exact grows.kept assembled nested old
    · exact ⟨_, grows.found, .refl _⟩
  placed := by
    intro other member
    rw [mem_append, mem_singleton] at member
    rcases member with old | rfl
    · exact assembled.placed other old
    · exact grows.placed
  distinct := by
    rw [map_append, map_singleton, <- concat_eq_append]
    apply assembled.distinct.concat
    intro member
    rcases mem_map.mp member with ⟨other, old, same⟩
    rcases assembled.kept other old with ⟨found, isFound, -⟩
    rw [same, grows.fresh] at isFound
    cases isFound
  counted := by
    intro predecessor held subqueryId hasHeld
    cases predecessor with
    | none => exact grows.counted_old assembled nested hasHeld
    | some root =>
      rcases hasHeld with ⟨holder, isHolder, atHolder, ownHolder⟩
      rw [mem_append, mem_singleton] at isHolder
      rcases isHolder with old | rfl
      · exact grows.counted_old assembled nested ⟨holder, old, atHolder, ownHolder⟩
      · subst atHolder
        have none := grows.countP_below assembled subqueryId
        refine ⟨held, ?_, fun _ => rfl, fun some => absurd none some⟩
        rw [getD_some, grows.found, ownHolder]

end

/-! ## Regular sequences -/

variable {query : DelliciusQuery} {deposits : List (Deposit Spot)}

lemma assembled_nil : Assembled query ([] : List (Deposit Spot)) [] where
  kept := forall_mem_nil _
  placed := forall_mem_nil _
  distinct := nodup_nil
  counted := by
    intro predecessor own subqueryId hasOwn
    cases predecessor with
    | none =>
      cases hasOwn
      exact ⟨[], rfl, fun _ => rfl, fun some => absurd rfl some⟩
    | some root =>
      rcases hasOwn with ⟨deposit, member, -⟩
      cases member

variable {earlier : List (Deposit Spot)}

lemma Recorded.of_prefix (recorded : Recorded query deposits)
    (isPrefix : earlier <+: deposits) : Recorded query earlier := by
  induction recorded with
  | nil =>
    rw [prefix_nil.mp isPrefix]
    exact .nil
  | snoc recorded linked stored ih =>
    rcases prefix_concat_iff.mp isPrefix with rfl | shorter
    · exact recorded.snoc linked stored
    · exact ih shorter

variable {deposit : Deposit Spot}

lemma Recorded.last (recorded : Recorded query (deposits ++ [deposit])) :
    Linked deposits deposit.results deposit.path ∧
      deposit.location = (storeQueryValue query deposit.subqueryId deposit.value
        deposit.results (assemble query deposits)).2 := by
  generalize isAll : deposits ++ [deposit] = all at recorded
  cases recorded with
  | nil => exact absurd isAll (append_ne_nil_of_right_ne_nil _ (cons_ne_nil _ _))
  | snoc recorded linked stored =>
    rcases append_inj' isAll rfl with ⟨rfl, same⟩
    cases same
    exact ⟨linked, stored⟩

lemma Regular.of_prefix (regular : Regular query deposits)
    (isPrefix : earlier <+: deposits) : Regular query earlier :=
  fun before deposit isBefore => regular before deposit (isBefore.trans isPrefix)

lemma Recorded.assembled (recorded : Recorded query deposits) (regular : Regular query deposits) :
    Assembled query deposits (assemble query deposits) ∧ Nested deposits := by
  induction recorded with
  | nil => exact ⟨assembled_nil, forall_mem_nil _⟩
  | @snoc deposits deposit recorded linked stored ih =>
    rcases ih (regular.of_prefix (prefix_append _ _)) with ⟨assembled, nested⟩
    rcases (regular deposits deposit prefix_rfl).grows assembled stored with
      ⟨own, fields, new, slot, grows⟩
    rw [assemble_snoc]
    exact ⟨grows.stays_assembled assembled nested, grows.nested assembled nested⟩

/-! ## Sequences that stay intact -/

variable {results : List (Text × Location)}

lemma Linked.known {path : List (Text × Spot)} (linked : Linked deposits results path)
    {entry : Text × Location} (member : entry ∈ results) : ∃ deposit ∈ deposits,
      deposit.subqueryId = entry.1 ∧ deposit.location = entry.2 := by
  induction linked with
  | nil => cases member
  | @cons deposit isDeposit linked ih =>
    rcases mem_cons.mp member with rfl | deeper
    · exact ⟨deposit, isDeposit, rfl, rfl⟩
    · exact ih deeper

lemma mem_of_lookup
    (found : results.lookup name = some location) : ∃ entry ∈ results, entry.2 = location := by
  induction results with
  | nil => cases found
  | cons entry rest ih =>
    rcases entry with ⟨key, value⟩
    rw [lookup_cons] at found
    split at found
    · exact ⟨(key, value), .head _, some.inj found⟩
    · rcases ih found with ⟨deeper, member, same⟩
      exact ⟨deeper, .tail _ member, same⟩

variable {root : Location}

lemma Linked.of_findRootResult {path : List (Text × Spot)}
    (linked : Linked deposits results path) (found : findRootResult query subqueryId results = some root) :
    ∃ parent ∈ deposits, parent.location = root := by
  rcases exists_of_findSome?_eq_some found with ⟨rootId, -, isRoot⟩
  rcases mem_of_lookup isRoot with ⟨entry, member, rfl⟩
  rcases linked.known member with ⟨parent, isParent, -, atParent⟩
  exact ⟨parent, isParent, atParent⟩

lemma Linked.of_predecessor (linked : Linked deposits deposit.results deposit.path)
    (found : deposit.predecessor query = some root) :
    ∃ parent ∈ deposits, parent.location = root := by
  rcases map_eq_some_iff.mp found with ⟨entry, isEntry, rfl⟩
  rcases linked.known (mem_of_find?_eq_some isEntry) with ⟨parent, isParent, -, atParent⟩
  exact ⟨parent, isParent, atParent⟩

lemma storeQueryValue_location (query : DelliciusQuery) (subqueryId : Text)
    (value : QueryValue) (results : List (Text × Location)) (data : QueryResultData) :
    ∃ slot, (slot = [] ∨ ∃ index, slot = [Selector.element index]) ∧
      (storeQueryValue query subqueryId value results data).2 =
        (findRootResult query subqueryId results).getD [] ++ .field subqueryId :: slot := by
  unfold storeQueryValue
  cases findRootResult query subqueryId results with
  | none => exact ⟨_, .inr ⟨_, rfl⟩, rfl⟩
  | some root =>
    simp only [addToRootResult]
    split
    · exact ⟨[], .inl rfl, rfl⟩
    · exact ⟨_, .inr ⟨_, rfl⟩, rfl⟩

/-- The roots of two equal places are equal. -/
lemma root_unique {first second slot other : Location}
    (isSlot : slot = [] ∨ ∃ index, slot = [Selector.element index])
    (isOther : other = [] ∨ ∃ index, other = [Selector.element index])
    (same : first ++ .field name :: slot = second ++ .field name :: other) : first = second := by
  rcases isSlot with rfl | ⟨index, rfl⟩
  · rcases isOther with rfl | ⟨index, rfl⟩
    · exact (append_inj' same rfl).1
    · exact absurd same.symm element_ne_field
  · rcases isOther with rfl | ⟨index', rfl⟩
    · exact absurd same element_ne_field
    · exact (append_inj' same rfl).1

lemma Assembled.nearest {data after : QueryResultData} (assembled : Assembled query deposits data)
    (linked : Linked deposits deposit.results deposit.path)
    (stored : deposit.location = (storeQueryValue query deposit.subqueryId deposit.value
      deposit.results data).2) (assembledAfter : Assembled query (deposits ++ [deposit]) after) :
    findRootResult query deposit.subqueryId deposit.results = deposit.predecessor query := by
  rcases storeQueryValue_location query deposit.subqueryId deposit.value deposit.results data
    with ⟨slot, isSlot, isStored⟩
  have placed : ∃ other, (other = [] ∨ ∃ index, other = [Selector.element index]) ∧
      deposit.location = (deposit.predecessor query).getD [] ++
        .field deposit.subqueryId :: other := by
    rcases assembledAfter.placed deposit (mem_append_right _ (mem_singleton_self _))
      with ⟨index, isPlaced⟩ | ⟨-, -, isPlaced⟩
    · exact ⟨_, .inr ⟨index, rfl⟩, isPlaced⟩
    · exact ⟨[], .inl rfl, isPlaced⟩
  rcases placed with ⟨other, isOther, isPlaced⟩
  have roots := root_unique isSlot isOther (isStored.symm.trans (stored.symm.trans isPlaced))
  cases found : findRootResult query deposit.subqueryId deposit.results with
  | none =>
    cases known : deposit.predecessor query with
    | none => rfl
    | some root =>
      rcases linked.of_predecessor known with ⟨parent, isParent, atParent⟩
      rw [found, known] at roots
      exact absurd (atParent.trans roots.symm) (assembled.location_ne_nil isParent)
  | some root =>
    rcases linked.of_findRootResult found with ⟨parent, isParent, atParent⟩
    cases known : deposit.predecessor query with
    | none =>
      rw [found, known] at roots
      exact absurd (atParent.trans roots) (assembled.location_ne_nil isParent)
    | some other =>
      rw [found, known] at roots
      exact congrArg some roots

lemma storeQueryValue_at_root {value found : QueryValue}
    {data : QueryResultData} (isRoot : findRootResult query subqueryId results = some root)
    (atRoot : (subquery data).at? root = some found) :
    (subquery (storeQueryValue query subqueryId value results data).1).at? root =
      some (.subquery (addToRootResult subqueryId value found.mutableSubquery).1) := by
  have mapped : ((subquery data).at? ((some root).getD [])).map
      mutableSubquery = some found.mutableSubquery := by
    rw [getD_some, atRoot]
    rfl
  rw [(storeQueryValue_eq query subqueryId value isRoot mapped).1]
  have below := at?_modify_append atRoot
    (fun _ => .subquery (addToRootResult subqueryId value found.mutableSubquery).1) []
  rwa [append_nil] at below

lemma lookup_addToRootResult {value found : QueryValue}
    {fields : QueryResultData} (occupied : fields.lookup name = some found) :
    (addToRootResult name value fields).1.lookup name =
      some (.list (found.mutableList ++ [value])) := by
  have notFree : ¬ ((fields.lookup name).isNone && value.hasRawData) = true := by
    rw [occupied]
    exact Bool.false_ne_true
  rw [addToRootResult, if_neg notFree, addToList_eq, occupied, lookup_setField, if_pos rfl]
  rfl

lemma HasOwn.mono {own : QueryResultData}
    {predecessor : Option Location} (hasOwn : HasOwn earlier own predecessor)
    (isPrefix : earlier <+: deposits) : HasOwn deposits own predecessor := by
  cases predecessor with
  | none => exact hasOwn
  | some root =>
    rcases hasOwn with ⟨holder, member, atHolder, ownHolder⟩
    exact ⟨holder, isPrefix.subset member, atHolder, ownHolder⟩

lemma exists_first {test : Deposit Spot -> Bool}
    (found : deposits.find? test = some first) : ∃ earlier,
      earlier ++ [first] <+: deposits ∧ earlier.countP test = 0 := by
  rcases find?_eq_some_iff_append.mp found with ⟨-, earlier, later, rfl, without⟩
  refine ⟨earlier, ⟨later, by rw [append_assoc]; rfl⟩, ?_⟩
  rw [countP_eq_zero]
  intro other member isOne
  have not := without other member
  rw [isOne] at not
  cases not

section

variable {deposit : Deposit Spot} {data : QueryResultData} {root : Location}
  (assembled : Assembled query deposits data)
  (assembledAfter : Assembled query (deposits ++ [deposit])
    (storeQueryValue query deposit.subqueryId deposit.value deposit.results data).1)
  (isRoot : findRootResult query deposit.subqueryId deposit.results = some root)

include assembled assembledAfter isRoot

lemma Assembled.dataSet (known : deposit.predecessor query = some root)
    (linked : Linked deposits deposit.results deposit.path) (regular : Regular query deposits) :
    ∃ own, HasOwn deposits own (some root) ∧ own.lookup deposit.subqueryId = none := by
  rcases linked.of_predecessor known with ⟨parent, isParent, atParent⟩
  rcases assembled.kept parent isParent with ⟨found, isFound, keeps⟩
  rcases assembledAfter.kept parent (mem_append_left _ isParent) with
    ⟨foundAfter, isFoundAfter, keepsAfter⟩
  rw [atParent] at isFound isFoundAfter
  rw [storeQueryValue_at_root isRoot isFound] at isFoundAfter
  cases isFoundAfter
  cases isValue : parent.value with
  | subquery own =>
    have hasOwn : HasOwn deposits own (some root) := ⟨parent, isParent, atParent, isValue⟩
    refine ⟨own, hasOwn, ?_⟩
    cases isOwn : own.lookup deposit.subqueryId with
    | none => rfl
    | some part =>
      -- A field of this name is lost when the first deposit of the subquery comes.
      cases first : deposits.find? (isKid query (some root) deposit.subqueryId) with
      | some kid =>
        rcases exists_first first with ⟨earlier, isPrefix, -⟩
        rcases isKid_iff.mp (find?_some first) with ⟨sameRoot, sameId⟩
        rcases (regular earlier kid isPrefix).dataSet root sameRoot with ⟨other, hasOther, free⟩
        have shorter : earlier <+: deposits := (prefix_append _ _).trans isPrefix
        rw [assembled.own_unique (hasOther.mono shorter) hasOwn, sameId, isOwn] at free
        cases free
      | none =>
        have noKid : deposits.countP (isKid query (some root) deposit.subqueryId) = 0 :=
          countP_eq_zero.mpr (find?_eq_none.mp first)
        rcases assembled.counted (some root) own deposit.subqueryId hasOwn with
          ⟨fields, atRoot, without, -⟩
        rw [getD_some, isFound] at atRoot
        cases atRoot
        rw [isValue] at keepsAfter
        rcases keepsAfter with ⟨fieldsAfter, isSame, kept⟩
        cases isSame
        have lost := kept deposit.subqueryId part isOwn
        simp only [mutableSubquery] at lost
        rw [lookup_addToRootResult ((without noKid).trans isOwn)] at lost
        have shorter := congrArg (fun value => value.map countValues) lost
        cases part with
        | list values => simp [countValues, mutableList] at shorter
        | _ => cases lost
  | _ =>
    rw [isValue] at keepsAfter
    cases keepsAfter

/-- The first deposit of the subquery below this result is not raw data, which would have been
overwritten. -/
lemma Assembled.notRaw {own : QueryResultData} (hasOwn : HasOwn deposits own (some root))
    (recorded : Recorded query deposits) (regular : Regular query deposits)
    (intact : Intact query deposits)
    (isFirst : deposits.find? (isKid query (some root) deposit.subqueryId) = some first) :
    first.value.hasRawData = false := by
  by_contra isRaw
  have raw : first.value.hasRawData = true := eq_true_of_ne_false isRaw
  rcases exists_first isFirst with ⟨earlier, isPrefix, noKid⟩
  rcases isKid_iff.mp (find?_some isFirst) with ⟨sameRoot, sameId⟩
  -- The first deposit was put by itself under the name.
  have alone : first.location = root ++ [.field deposit.subqueryId] := by
    have regularFirst := regular earlier first isPrefix
    rcases regularFirst.dataSet root sameRoot with ⟨ownFirst, hasOwnFirst, free⟩
    have shorter : earlier <+: deposits := (prefix_append _ _).trans isPrefix
    rcases (intact earlier shorter).counted (some root) ownFirst first.subqueryId hasOwnFirst
      with ⟨fields, atRoot, without, -⟩
    rw [sameId] at without free
    have absent : fields.lookup first.subqueryId = none := by
      rw [sameId]
      exact (without noKid).trans free
    have mapped : ((subquery (assemble query earlier)).at?
        ((some root).getD [])).map mutableSubquery = some fields := by
      rw [atRoot]
      rfl
    have isFree : ((fields.lookup first.subqueryId).isNone && first.value.hasRawData) =
        true := by
      rw [absent, raw]
      rfl
    have stored := (storeQueryValue_eq query first.subqueryId first.value
      (regularFirst.nearest.trans sameRoot) mapped).2
    simp only [addBelow, addToRootResult, if_pos isFree, getD_some] at stored
    rw [(recorded.of_prefix isPrefix).last.2, stored, sameId]
  have member := mem_of_find?_eq_some isFirst
  rcases assembled.counted (some root) own deposit.subqueryId hasOwn with ⟨fields, atRoot, -, -⟩
  rw [getD_some] at atRoot
  have before : fields.lookup deposit.subqueryId = some first.value := by
    rcases assembled.kept first member with ⟨found, isFound, keeps⟩
    rw [alone, at?_append, atRoot, bind_some, at?_cons, part?] at isFound
    rcases bind_eq_some_iff.mp isFound with ⟨part, isPart, isSame⟩
    rw [at?_nil] at isSame
    rw [isPart, isSame, keeps.of_raw raw]
  rcases assembledAfter.kept first (mem_append_left _ member) with ⟨found, isFound, keeps⟩
  rw [alone, at?_append, storeQueryValue_at_root isRoot atRoot, bind_some,
    at?_cons, part?] at isFound
  simp only [mutableSubquery] at isFound
  rw [lookup_addToRootResult before] at isFound
  rw [<- keeps.of_raw raw, <- some.inj isFound] at raw
  cases raw

end

lemma Recorded.regular (recorded : Recorded query deposits) (intact : Intact query deposits) :
    Regular query deposits := by
  induction recorded with
  | nil =>
    intro earlier deposit isPrefix
    exact absurd (prefix_nil.mp isPrefix) (append_ne_nil_of_right_ne_nil _ (cons_ne_nil _ _))
  | @snoc deposits last recorded linked stored ih =>
    have intactBefore : Intact query deposits :=
      fun earlier isPrefix => intact earlier (isPrefix.trans (prefix_append _ _))
    have regular := ih intactBefore
    intro earlier deposit isPrefix
    rcases prefix_concat_iff.mp isPrefix with isWhole | shorter
    · rcases append_inj' isWhole rfl with ⟨rfl, same⟩
      have isLast : deposit = last := singleton_inj.mp same
      subst isLast
      have assembled := intactBefore earlier prefix_rfl
      have assembledAfter := intact (earlier ++ [deposit]) prefix_rfl
      rw [assemble_snoc] at assembledAfter
      have nearest := assembled.nearest linked stored assembledAfter
      have dataSet : ∀ root, deposit.predecessor query = some root -> ∃ own,
          HasOwn earlier own (some root) ∧ own.lookup deposit.subqueryId = none :=
        fun root known => assembled.dataSet assembledAfter (nearest.trans known) known linked
          regular
      refine ⟨nearest, dataSet, ?_⟩
      intro root first known isFirst
      rcases dataSet root known with ⟨own, hasOwn, -⟩
      exact assembled.notRaw assembledAfter (nearest.trans known) hasOwn recorded regular
        intactBefore isFirst
    · exact regular earlier deposit shorter

/-- Nothing is lost and nothing is misplaced exactly when all deposits are regular. -/
lemma Recorded.intact_iff_regular (recorded : Recorded query deposits) :
    Intact query deposits ↔ Regular query deposits := by
  constructor
  · exact recorded.regular
  · intro regular earlier isPrefix
    exact ((recorded.of_prefix isPrefix).assembled (regular.of_prefix isPrefix)).1

end Ecclesia.Planner
