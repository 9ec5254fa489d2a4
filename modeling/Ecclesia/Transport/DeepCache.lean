import Ecclesia.Transport.Ages
import Mathlib.Data.List.TakeWhile

namespace Ecclesia.Transport

open List Option

/-!
# What deep caching files

The objects inside a response are visited in breadth-first order.  The first one that names a
resource becomes the body of a node for the resource, if there is no node yet.  An object whose
name has a fragment is only a part of the resource that it names, but it counts too, since the
name is taken without the fragment.
-/

/-- The values in a queue and the containers inside them, in breadth-first order. -/
def breadthFirst (queue : List Json) : List Json :=
  match queue with
  | [] => []
  | current :: rest => current :: breadthFirst (rest ++ current.items.filter isContainer)
termination_by (queue.map sizeOf).sum
decreasing_by
  have smaller := sum_containers_lt current
  rw [List.map_append, List.sum_append, List.map_cons, List.sum_cons]
  omega

lemma mem_parts_of_container {whole child : Json}
    (inside : child ∈ whole.items.filter isContainer) : child ∈ whole.parts := by
  rcases mem_filter.mp inside with ⟨item, container⟩
  cases whole with
  | array elements => exact item
  | object members => exact item
  | null => cases item
  | _ =>
    rw [mem_singleton.mp item] at container
    cases container

lemma partOf_of_mem_breadthFirst (queue : List Json) : ∀ value ∈ breadthFirst queue,
    ∃ whole ∈ queue, PartOf Json.parts value whole := by
  induction queue using breadthFirst.induct with
  | case1 =>
    rw [breadthFirst]
    exact forall_mem_nil _
  | case2 current rest ih =>
    intro value member
    rw [breadthFirst] at member
    rcases mem_cons.mp member with rfl | member
    · exact ⟨value, .head _, .here⟩
    · rcases ih value member with ⟨whole, queued, inside⟩
      rcases mem_append.mp queued with queued | child
      · exact ⟨whole, mem_cons_of_mem current queued, inside⟩
      · exact ⟨current, .head _, .inside not_false (mem_parts_of_container child) inside⟩

/-- The name of an object that has another member too. -/
def objectName (value : Json) : Option Json :=
  match value with
  | .object members => if 2 <= members.length then members.lookup (text "@odata.id") else none
  | _ => none

/-- The object has a name, and without a fragment it is this URI. -/
def names (uri : Text) (value : Json) : Bool :=
  match objectName value with
  | some (.string name) => stripFragment name == uri
  | _ => false

/-- The object does not have a name that is no string.  Such a name ends the visits. -/
def hasReadableName (value : Json) : Bool :=
  match objectName value with
  | some name => name.isString
  | none => true

variable {value : Json}

lemma names_iff {uri : Text} :
    names uri value = true ↔
      ∃ name, objectName value = some (.string name) ∧ stripFragment name = uri := by
  unfold names
  split
  · rename_i name named
    rw [named, beq_iff_eq]
    constructor
    · exact fun same => ⟨name, rfl, same⟩
    · rintro ⟨_, ⟨⟩, same⟩
      exact same
  · rename_i unnamed
    refine iff_of_false Bool.false_ne_true ?_
    rintro ⟨name, named, -⟩
    exact unnamed name named

lemma find_of_objectName {name : Json} (named : objectName value = some name) :
    value.find (text "@odata.id") = some name := by
  cases value with
  | object members =>
    rw [objectName] at named
    split at named
    · exact named
    · cases named
  | _ => cases named

/-- An object that is visited for its members, with what the code reads of it. -/
lemma objectName_eq (occupied : value.items ≠ []) :
    objectName value =
      if jsonSize value = 1 then none else value.find (text "@odata.id") := by
  cases value with
  | object members =>
    cases members with
    | nil => exact absurd rfl occupied
    | cons first rest =>
      cases rest with
      | nil => rfl
      | cons second rest => simp [objectName, jsonSize, Json.find]
  | array elements => simp [objectName, Json.find]
  | _ => rfl

lemma objectName_of_empty (empty : value.items = []) : objectName value = none := by
  cases value with
  | object members =>
    rw [map_eq_nil_iff.mp empty]
    rfl
  | _ => rfl

section

variable {World Time Duration : Type} (upstream : Upstream World Time)
  (config : CacheConfig Duration) (response : Response)

def CacheState.resultAt (state : CacheState World Time Duration) (uri : Text) :
    Option (StatusOr Response) :=
  (state.getCache.lookup uri).map CacheNode.result

def isBlocked (uri : Text) : Bool :=
  config.enableBlocklist && isPathBlocklisted uri

/-- The result that an object gives to the node for a URI. -/
def filedResult (uri : Text) (value : Json) : Option (StatusOr Response) :=
  if names uri value && !isBlocked config uri then some (.ok { response with body := .json value })
  else none

lemma filedResult_of_unreadable (uri : Text) (unreadable : hasReadableName value = false) :
    filedResult config response uri value = none := by
  rw [filedResult, if_neg]
  intro files
  rcases names_iff.mp (Bool.and_eq_true_iff.mp files).1 with ⟨name, named, -⟩
  rw [hasReadableName, named] at unreadable
  cases unreadable

lemma resultAt_assign (state : CacheState World Time Duration) (key uri : Text)
    (node : CacheNode Time Duration Unit) (world : World) (filings : List (Filing Time)) :
    CacheState.resultAt { state with
        getCache := state.getCache.assign key node, world := world, filings := filings } uri =
      if uri == key then some node.result else state.resultAt uri := by
  rw [CacheState.resultAt, HashMap.lookup_assign]
  split
  · rfl
  · rfl

/-- An object gives its body to a node for its name, and ends the visits if its name is no string.
-/
lemma resultAt_cacheObject {current : Json} (occupied : current.items ≠ [])
    (state : CacheState World Time Duration) (uri : Text) :
    (cacheObject upstream config response current state).1.resultAt uri =
        (state.resultAt uri).or (filedResult config response uri current) ∧
      (cacheObject upstream config response current state).2.isSome = !hasReadableName current := by
  have name := objectName_eq occupied
  unfold cacheObject
  by_cases single : jsonSize current = 1
  · rw [if_pos single] at name ⊢
    simp [filedResult, names, hasReadableName, name]
  · rw [if_neg single] at name ⊢
    cases found : current.find (text "@odata.id") with
    | none =>
      rw [found] at name
      simp [filedResult, names, hasReadableName, name]
    | some value =>
      rw [found] at name
      cases value with
      | string content =>
        simp only [Json.getString]
        have readable : hasReadableName current = true := by
          rw [hasReadableName, name]
          rfl
        have named : names uri current = (stripFragment content == uri) := by
          rw [names, name]
        by_cases blocked : isBlocked config (stripFragment content) = true
        · have stays := blocked
          rw [isBlocked] at stays
          rw [if_pos stays, readable, filedResult, named]
          refine ⟨?_, rfl⟩
          rw [if_neg, or_none]
          intro files
          rcases Bool.and_eq_true_iff.mp files with ⟨same, free⟩
          rw [<- eq_of_beq same, blocked] at free
          cases free
        · have goesOn := blocked
          rw [isBlocked] at goesOn
          rw [if_neg goesOn, readable, filedResult, named]
          cases present : state.getCache.lookup (stripFragment content) with
          | some node =>
            refine ⟨?_, rfl⟩
            change state.resultAt uri = _
            split
            · rename_i files
              rw [<- eq_of_beq (Bool.and_eq_true_iff.mp files).1, CacheState.resultAt, present]
              rfl
            · rw [or_none]
          | none =>
            refine ⟨?_, rfl⟩
            simp only [resultAt_assign]
            by_cases same : uri = stripFragment content
            · rw [same, CacheState.resultAt, present]
              simp [blocked, CacheNode.filled]
            · have other : (stripFragment content == uri) = false :=
                beq_false_of_ne fun found => same found.symm
              rw [beq_false_of_ne same, other]
              simp
      | _ => simp [Json.getString, filedResult, names, hasReadableName, name, Json.isString]

/-- The object is tried at each of its items, with no more effect than at the first one. -/
lemma resultAt_cacheItems {current : Json} (occupied : current.items ≠ []) (uri : Text)
    (items : List Json) : items ≠ [] -> ∀ state : CacheState World Time Duration,
    (cacheItems upstream config response current items state).1.resultAt uri =
        (state.resultAt uri).or (filedResult config response uri current) ∧
      (cacheItems upstream config response current items state).2.isSome =
        !hasReadableName current := by
  induction items with
  | nil => exact fun impossible => absurd rfl impossible
  | cons item rest ih =>
    intro _ state
    have here := resultAt_cacheObject upstream config response occupied state uri
    rw [cacheItems]
    rcases tried : cacheObject upstream config response current state with ⟨changed, failure⟩
    rw [tried] at here
    cases failure with
    | some failure => exact here
    | none =>
      cases rest with
      | nil => exact here
      | cons next more =>
        have later := ih (cons_ne_nil next more) changed
        refine ⟨?_, later.2⟩
        rw [later.1, here.1, Option.or_assoc, Option.or_self]

lemma resultAt_cacheQueue (uri : Text) (queue : List Json)
    (state : CacheState World Time Duration) :
    (cacheQueue upstream config response queue state).1.resultAt uri =
      (state.resultAt uri).or
        (((breadthFirst queue).takeWhile hasReadableName).findSome?
          (filedResult config response uri)) := by
  induction queue, state using cacheQueue.induct upstream config response with
  | case1 state =>
    rw [cacheQueue, breadthFirst]
    exact (or_none).symm
  | case2 state current rest changed failure outcome =>
    rw [cacheQueue, outcome, breadthFirst]
    by_cases occupied : current.items = []
    · rw [occupied] at outcome
      cases outcome
    · have here := resultAt_cacheItems upstream config response occupied uri current.items
        occupied state
      rw [outcome] at here
      have unreadable : hasReadableName current = false := by
        simpa using here.2.symm
      have nothing : filedResult config response uri current = none :=
        filedResult_of_unreadable config response uri unreadable
      rw [takeWhile_cons, unreadable, here.1, nothing]
      rfl
  | case3 state current rest changed outcome ih =>
    rw [cacheQueue, outcome, breadthFirst]
    have here : changed.resultAt uri =
          (state.resultAt uri).or (filedResult config response uri current) ∧
        hasReadableName current = true := by
      by_cases occupied : current.items = []
      · rw [occupied] at outcome
        cases outcome
        have unnamed := objectName_of_empty occupied
        simp [filedResult, names, hasReadableName, unnamed]
      · have tried := resultAt_cacheItems upstream config response occupied uri current.items
          occupied state
        rw [outcome] at tried
        exact ⟨tried.1, by simpa using tried.2.symm⟩
    rw [takeWhile_cons, if_pos here.2, findSome?_cons]
    refine ih.trans ?_
    rw [here.1, Option.or_assoc]
    congr 1
    cases filedResult config response uri current with
    | none => rfl
    | some result => rfl

lemma resultAt_cacheNestedObjects {body : Json} (isJson : response.body = .json body)
    (state : CacheState World Time Duration) (uri : Text) :
    (cacheNestedObjects upstream config response state).1.resultAt uri =
      (state.resultAt uri).or
        (((breadthFirst [body]).takeWhile hasReadableName).findSome?
          (filedResult config response uri)) := by
  rw [cacheNestedObjects, isJson]
  exact resultAt_cacheQueue upstream config response uri [body] state

end

/-- A value inside another one, below its top. -/
def Inside (value whole : Json) : Prop :=
  ∃ child ∈ whole.parts, PartOf Json.parts value child

lemma sizeOf_partOf_le {whole : Json} (inside : PartOf Json.parts value whole) :
    sizeOf value <= sizeOf whole := by
  induction inside with
  | here => exact le_rfl
  | inside _ isPart _ ih => exact ih.trans (Json.sizeOf_parts_lt _ _ isPart).le

lemma not_inside_self (value : Json) : ¬ Inside value value := by
  rintro ⟨child, isPart, inside⟩
  have smaller := Json.sizeOf_parts_lt value child isPart
  have notSmaller := sizeOf_partOf_le inside
  omega

/-- The objects of a response are those of the service: one named without a fragment is the
resource, and one with a fragment is inside it. -/
structure Consistent (resource : Text -> Json) (body : Json) : Prop where
  whole : ∀ object name, PartOf Json.parts object body ->
    objectName object = some (.string name) -> '#' ∉ name -> object = resource name
  fragment : ∀ object name, PartOf Json.parts object body ->
    object.find (text "@odata.id") = some (.string name) -> '#' ∈ name ->
    Inside object (resource (stripFragment name))

/-- All nodes that are new have the bodies of the resources at their URIs. -/
def FilesResources {World Time Duration : Type} (resource : Text -> Json)
    (before after : CacheState World Time Duration) : Prop :=
  ∀ uri node, after.getCache.lookup uri = some node -> before.getCache.lookup uri = none ->
    ∃ filed, node.result = .ok filed ∧ filed.body = .json (resource uri)

/-- The first object in breadth-first order that is named as a URI, if no name before is no string.
-/
def firstNamed (uri : Text) (body : Json) : Option Json :=
  ((breadthFirst [body]).takeWhile hasReadableName).find? (names uri)

lemma partOf_of_firstNamed {uri : Text} {body first : Json}
    (isFirst : firstNamed uri body = some first) : PartOf Json.parts first body := by
  have visited := (takeWhile_sublist _).subset (mem_of_find?_eq_some isFirst)
  rcases partOf_of_mem_breadthFirst [body] first visited with ⟨whole, queued, inside⟩
  rw [mem_singleton.mp queued] at inside
  exact inside

lemma stripFragment_of_firstNamed {uri name : Text} {body first : Json}
    (isFirst : firstNamed uri body = some first)
    (named : objectName first = some (.string name)) : stripFragment name = uri := by
  rcases names_iff.mp (find?_some isFirst) with ⟨found, alsoNamed, same⟩
  rw [named] at alsoNamed
  cases alsoNamed
  exact same

lemma stripFragment_of_no_fragment {name : Text} (plain : '#' ∉ name) :
    stripFragment name = name := by
  apply takeWhile_eq_self_iff.mpr
  intro c member
  rw [bne_iff_ne]
  intro same
  exact plain (same ▸ member)

lemma findSome_filedResult {Duration : Type} (config : CacheConfig Duration) (response : Response)
    (uri : Text)
    (values : List Json) :
    values.findSome? (filedResult config response uri) =
      if isBlocked config uri then none
      else (values.find? (names uri)).map fun value => .ok { response with body := .json value } := by
  induction values with
  | nil => simp
  | cons value rest ih =>
    rw [findSome?_cons, find?_cons, ih, filedResult]
    cases names uri value with
    | false => simp
    | true =>
      cases isBlocked config uri with
      | true => simp
      | false => simp

/-- If a response is consistent with its service, deep caching files resources exactly if for each
URI that is not blocked and has no node, the first object that names it has no fragment. -/
theorem cacheNestedObjects_files_resources_iff :
    ∀ {World Time Duration : Type} (upstream : Upstream World Time)
        (config : CacheConfig Duration) (response : Response) (body : Json)
        (resource : Text -> Json) (state : CacheState World Time Duration),
      response.body = .json body -> Consistent resource body ->
      (FilesResources resource state (cacheNestedObjects upstream config response state).1 ↔
        ∀ uri first name, isBlocked config uri = false ->
          state.getCache.lookup uri = none -> firstNamed uri body = some first ->
          objectName first = some (.string name) -> '#' ∉ name) := by
  intro World Time Duration upstream config response body resource state isJson consistent
  have results : ∀ uri, state.getCache.lookup uri = none ->
      ((cacheNestedObjects upstream config response state).1.getCache.lookup uri).map
          CacheNode.result =
        if isBlocked config uri then none
        else (firstNamed uri body).map fun value => .ok { response with body := .json value } := by
    intro uri absent
    have after := resultAt_cacheNestedObjects upstream config response isJson state uri
    rw [findSome_filedResult, CacheState.resultAt, CacheState.resultAt, absent] at after
    exact after
  constructor
  · intro files uri first name free absent isFirst named fragment
    have result := results uri absent
    rw [free, isFirst] at result
    rcases Option.map_eq_some_iff.mp result with ⟨node, found, isFiled⟩
    rcases files uri node found absent with ⟨filed, same, isResource⟩
    rw [isFiled] at same
    cases same
    have isWhole : first = resource uri := Body.json.inj isResource
    have inside := consistent.fragment first name (partOf_of_firstNamed isFirst)
      (find_of_objectName named) fragment
    rw [stripFragment_of_firstNamed isFirst named, <- isWhole] at inside
    exact not_inside_self first inside
  · intro plain uri node found absent
    have result := results uri absent
    rw [found] at result
    by_cases blocked : isBlocked config uri = true
    · rw [if_pos blocked] at result
      cases result
    · rw [if_neg blocked] at result
      cases isFirst : firstNamed uri body with
      | none =>
        rw [isFirst] at result
        cases result
      | some first =>
        rw [isFirst] at result
        rcases names_iff.mp (List.find?_some isFirst) with ⟨name, named, sameUri⟩
        have noFragment := plain uri first name (Bool.not_eq_true _ ▸ blocked) absent isFirst named
        have isWhole := consistent.whole first name (partOf_of_firstNamed isFirst) named noFragment
        rw [stripFragment_of_no_fragment noFragment] at sameUri
        rw [<- sameUri, <- isWhole]
        exact ⟨_, Option.some_inj.mp result, rfl⟩

/-- A fan of the thermal resource, which is named with a fragment. -/
def fanObject : Json :=
  .object [(text "@odata.id", .string (text "/t#/Fans/0")), (text "Name", .string (text "Fan"))]

/-- A response that holds an object. -/
def chassisBody (name : Text) (value : Json) : Json :=
  .object [(text "@odata.id", .string (text "/c")), (name, value)]

def thermalBody : Json :=
  .object [(text "@odata.id", .string (text "/t")), (text "Fans", .array [fanObject])]

def resourceOf (chassis : Json) (uri : Text) : Json :=
  if uri = text "/t" then thermalBody else chassis

lemma eq_of_partOf_string {part : Json} {content : Text}
    (inside : PartOf Json.parts part (.string content)) : part = .string content := by
  rcases partOf_iff.mp inside with same | ⟨child, impossible, -⟩
  · exact same
  · cases impossible

lemma partOf_chassisBody {name : Text} {part : Json}
    (inside : PartOf Json.parts part (chassisBody name value)) :
    part = chassisBody name value ∨ part = .string (text "/c") ∨ PartOf Json.parts part value := by
  rcases partOf_iff.mp inside with same | ⟨child, isPart, below⟩
  · exact .inl same
  · rcases mem_cons.mp isPart with rfl | isPart
    · exact .inr (.inl (eq_of_partOf_string below))
    · rw [mem_singleton.mp isPart] at below
      exact .inr (.inr below)

lemma consistent_plain :
    Consistent (resourceOf (chassisBody (text "Name") (.string (text "C"))))
      (chassisBody (text "Name") (.string (text "C"))) := by
  constructor
  · intro object name inside named plain
    rcases partOf_chassisBody inside with rfl | rfl | inside
    · cases named
      rfl
    · cases named
    · rw [eq_of_partOf_string inside] at named
      cases named
  · intro object name inside named fragment
    rcases partOf_chassisBody inside with rfl | rfl | inside
    · cases named
      exact absurd fragment (by decide)
    · cases named
    · rw [eq_of_partOf_string inside] at named
      cases named

lemma consistent_fan :
    Consistent (resourceOf (chassisBody (text "Fan") fanObject))
      (chassisBody (text "Fan") fanObject) := by
  have isFan : ∀ part, PartOf Json.parts part fanObject ->
      part = fanObject ∨ ∃ content, part = .string content := by
    intro part inside
    rcases partOf_iff.mp inside with same | ⟨child, isPart, below⟩
    · exact .inl same
    · rcases mem_cons.mp isPart with rfl | isPart
      · exact .inr ⟨_, eq_of_partOf_string below⟩
      · rw [mem_singleton.mp isPart] at below
        exact .inr ⟨_, eq_of_partOf_string below⟩
  constructor
  · intro object name inside named plain
    rcases partOf_chassisBody inside with rfl | rfl | inside
    · cases named
      rfl
    · cases named
    · rcases isFan object inside with rfl | ⟨content, rfl⟩
      · cases named
        exact absurd (by decide) plain
      · cases named
  · intro object name inside named fragment
    rcases partOf_chassisBody inside with rfl | rfl | inside
    · cases named
      exact absurd fragment (by decide)
    · cases named
    · rcases isFan object inside with rfl | ⟨content, rfl⟩
      · cases named
        refine ⟨.array [fanObject], ?_, .inside not_false (.head _) .here⟩
        exact .tail _ (.head _)
      · cases named

/-- A deep cache without a list of blocked paths. -/
def openConfig : CacheConfig Nat :=
  ⟨10, true, false⟩

def emptyCache : CacheState Nat Nat Nat :=
  .start 0

/-- A response with a value that is no object. -/
theorem cacheNestedObjects_files_resources_plain :
    Consistent (resourceOf (chassisBody (text "Name") (.string (text "C"))))
        (chassisBody (text "Name") (.string (text "C"))) ∧
      (FilesResources (resourceOf (chassisBody (text "Name") (.string (text "C")))) emptyCache
          (cacheNestedObjects willingUpstream openConfig
            ⟨200, .json (chassisBody (text "Name") (.string (text "C"))), []⟩ emptyCache).1 ↔
        ∀ uri first name, isBlocked openConfig uri = false ->
          emptyCache.getCache.lookup uri = none ->
          firstNamed uri (chassisBody (text "Name") (.string (text "C"))) = some first ->
          objectName first = some (.string name) -> '#' ∉ name) :=
  ⟨consistent_plain,
    cacheNestedObjects_files_resources_iff willingUpstream openConfig _ _ _ emptyCache rfl
      consistent_plain⟩

/-- The fan becomes the body of the node for the thermal resource. -/
theorem cacheNestedObjects_files_fan :
    Consistent (resourceOf (chassisBody (text "Fan") fanObject))
        (chassisBody (text "Fan") fanObject) ∧
      ¬ FilesResources (resourceOf (chassisBody (text "Fan") fanObject)) emptyCache
        (cacheNestedObjects willingUpstream openConfig
          ⟨200, .json (chassisBody (text "Fan") fanObject), []⟩ emptyCache).1 := by
  refine ⟨consistent_fan, fun files => ?_⟩
  have result := resultAt_cacheNestedObjects willingUpstream openConfig
    ⟨200, .json (chassisBody (text "Fan") fanObject), []⟩ rfl emptyCache (text "/t")
  have visited : breadthFirst [chassisBody (text "Fan") fanObject] =
      [chassisBody (text "Fan") fanObject, fanObject] := by
    rw [breadthFirst]
    change _ :: breadthFirst [fanObject] = _
    rw [breadthFirst]
    change _ :: _ :: breadthFirst [] = _
    rw [breadthFirst]
  rw [visited] at result
  rcases Option.map_eq_some_iff.mp (result.trans rfl) with ⟨node, found, isFiled⟩
  rcases files (text "/t") node found rfl with ⟨filed, same, isResource⟩
  rw [isFiled] at same
  cases same
  have isFan : fanObject = thermalBody := Body.json.inj isResource
  have sameMembers : fanObject.contains (text "Fans") = thermalBody.contains (text "Fans") := by
    rw [isFan]
  exact absurd sameMembers (by decide)

end Ecclesia.Transport
