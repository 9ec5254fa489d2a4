import Ecclesia.Router.Selection
import Mathlib.Data.List.Induction

namespace Ecclesia.Router

open List Option

/-!
# Which servers a selection selects

The message promises that all conditions that are set are met.  Each matcher is brought
into a form that names the conditions it reads; whole lists of selections and policies
then follow by induction.  The matchers differ in the classes they read and in what they
make of a message that sets neither tags nor server classes.
-/

/-- Every condition that is set holds of the server. -/
structure SelectionClass.Holds (select : SelectionClass) (server : ServerInfo) : Prop where
  serverType : ∀ typeSelect, select.serverType = some typeSelect -> typeSelect = server.serverType
  serverTag : select.serverTag ≠ [] -> server.serverTag ∈ select.serverTag
  serverClass : select.serverClass ≠ [] -> server.serverClass ∈ select.serverClass
  nodeClass : select.nodeClass ≠ [] ->
    ∃ classSelect ∈ select.nodeClass, serverClassFromNodeClass classSelect = server.serverClass

/-- A message with a condition, none of them unspecified. -/
structure SelectionClass.Valid (select : SelectionClass) : Prop where
  conditional : select.isEmpty = false
  serverType : select.serverType ≠ some .unspecified
  serverClass : ServerClass.unspecified ∉ select.serverClass
  nodeClass : NodeClass.unspecified ∉ select.nodeClass

def serverClassMatched (select : SelectionClass) (server : ServerInfo) : Bool :=
  if select.serverClass.isEmpty then true else select.serverClass.contains server.serverClass

def nodeClassMatched (select : SelectionClass) (server : ServerInfo) : Bool :=
  if select.nodeClass.isEmpty then true
  else select.nodeClass.any fun classSelect =>
    decide (serverClassFromNodeClass classSelect = server.serverClass)

variable {select : SelectionClass}

lemma policyTypeMatched_iff {serverType : ServerType} :
    policyTypeMatched select serverType = true ↔
      ∀ typeSelect, select.serverType = some typeSelect -> typeSelect = serverType := by
  unfold policyTypeMatched
  cases select.serverType with
  | none => simp
  | some typeSelect => simp

lemma optional_iff {Element : Type} {elements : List Element} {found : Bool} {Found : Prop}
    (means : found = true ↔ Found) :
    (if elements.isEmpty then true else found) = true ↔ (elements ≠ [] -> Found) := by
  cases elements with
  | nil => simp
  | cons element rest => simp [means]

lemma serverTagMatched_iff {serverTag : Text} :
    serverTagMatched select serverTag = true ↔
      (select.serverTag ≠ [] -> serverTag ∈ select.serverTag) :=
  optional_iff contains_iff_mem

variable {server : ServerInfo}

lemma serverClassMatched_iff : serverClassMatched select server = true ↔
      (select.serverClass ≠ [] -> server.serverClass ∈ select.serverClass) :=
  optional_iff contains_iff_mem

lemma nodeClassMatched_iff : nodeClassMatched select server = true ↔
      (select.nodeClass ≠ [] -> ∃ classSelect ∈ select.nodeClass,
        serverClassFromNodeClass classSelect = server.serverClass) :=
  optional_iff (by simp)

lemma holds_iff : select.Holds server ↔
      (policyTypeMatched select server.serverType && serverTagMatched select server.serverTag &&
        serverClassMatched select server && nodeClassMatched select server) = true := by
  simp only [Bool.and_eq_true, policyTypeMatched_iff, serverTagMatched_iff,
    serverClassMatched_iff, nodeClassMatched_iff]
  constructor
  · rintro ⟨ofType, ofTag, ofClass, ofNode⟩
    exact ⟨⟨⟨ofType, ofTag⟩, ofClass⟩, ofNode⟩
  · rintro ⟨⟨⟨ofType, ofTag⟩, ofClass⟩, ofNode⟩
    exact ⟨ofType, ofTag, ofClass, ofNode⟩

instance (select : SelectionClass) (server : ServerInfo) : Decidable (select.Holds server) :=
  decidable_of_iff _ holds_iff.symm

lemma classMatched_valid {Class : Type} [DecidableEq Class] {unspecified : Class} {message : String}
    {isServers : Class -> Bool} {classes : List Class} (valid : unspecified ∉ classes) :
    classMatched unspecified message isServers classes = .ok (classes.any isServers) := by
  induction classes with
  | nil => rfl
  | cons classSelect rest ih =>
    have other : classSelect ≠ unspecified := by
      rintro rfl
      exact valid (.head _)
    rw [classMatched, if_neg other, ih fun inside => valid (.tail _ inside), any_cons]
    cases isServers classSelect with
    | true => rfl
    | false => rfl

lemma queryClassMatched_valid (valid : select.Valid) :
    queryClassMatched select (some server.serverClass) =
      .ok (if select.nodeClass.isEmpty then serverClassMatched select server
        else nodeClassMatched select server) := by
  unfold queryClassMatched serverClassMatched nodeClassMatched
  cases nodeEmpty : select.nodeClass.isEmpty with
  | false => simp [classMatched_valid valid.nodeClass]
  | true =>
    cases classEmpty : select.serverClass.isEmpty with
    | true => rfl
    | false =>
      simp only [classMatched_valid valid.serverClass, Bool.not_true, Bool.not_false,
        Bool.false_eq_true, if_true, if_false]
      congr 1
      rw [Bool.eq_iff_iff]
      simp

lemma selectionMatched_valid (valid : select.Valid) :
    selectionMatched select server.serverTag server.serverType (some server.serverClass) =
      .ok (policyTypeMatched select server.serverType && serverTagMatched select server.serverTag &&
        (if select.nodeClass.isEmpty then serverClassMatched select server
          else nodeClassMatched select server)) := by
  have typed : queryTypeMatched select server.serverType =
      .ok (policyTypeMatched select server.serverType) := by
    unfold queryTypeMatched policyTypeMatched
    cases given : select.serverType with
    | none => rfl
    | some typeSelect =>
      have specified : typeSelect ≠ .unspecified := by
        rintro rfl
        exact valid.serverType given
      exact if_neg specified
  unfold selectionMatched
  rw [valid.conditional, typed, queryClassMatched_valid valid]
  rfl

lemma versionPolicyMatched_eq (select : SelectionClass) (server : ServerInfo) :
    versionPolicyMatched select server.serverTag server.serverType server.serverClass =
      (policyTypeMatched select server.serverType && serverTagMatched select server.serverTag &&
        serverClassMatched select server) :=
  rfl

/-- Call `executeFn` a number of times, up to the first error. -/
def executeTimes {World : Type} (executeFn : World -> Status × World) :
    Nat -> World -> Status × World
  | 0, world => (.okStatus, world)
  | count + 1, world =>
    match executeFn world with
    | (status, after) =>
      if status.isOk then executeTimes executeFn count after else (status, after)

lemma executeOnMatchingSelections_eq {World : Type} {executeFn : World -> Status × World}
    {serverTag : Text} {serverType : ServerType} {serverClass : Option ServerClass}
    {matched : SelectionClass -> Bool} {selectSpecs : List SelectionClass}
    (decided : ∀ select ∈ selectSpecs,
      selectionMatched select serverTag serverType serverClass = .ok (matched select)) :
    ∀ world,
      executeOnMatchingSelections serverTag serverType serverClass executeFn selectSpecs world =
        executeTimes executeFn (selectSpecs.countP matched) world := by
  induction selectSpecs with
  | nil => exact fun world => rfl
  | cons select rest ih =>
    intro world
    have later := ih fun other isOther => decided other (.tail _ isOther)
    rw [executeOnMatchingSelections, decided select (.head _)]
    cases matches_ : matched select with
    | false => rw [countP_cons_of_neg (by simp [matches_]), <- later]
    | true =>
      rw [countP_cons_of_pos matches_, executeTimes]
      rcases executeFn world with ⟨status, after⟩
      simp only [later]

lemma getStableIdTypeFromRouterSpec_eq {routerSpec : QueryRouterSpec}
    {policies : List StableIdPolicy} (config : routerSpec.stableIdConfig = some policies)
    (server : ServerInfo) :
    getStableIdTypeFromRouterSpec routerSpec server.serverTag server.serverType server.serverClass =
      ((policies.find? fun policy => stableIdPolicyMatched policy.select server.serverTag
        server.serverType server.serverClass).map StableIdPolicy.stableIdType).getD
          routerSpec.defaultStableIdType := by
  unfold getStableIdTypeFromRouterSpec firstMatchingPolicy
  rw [config]
  simp only
  cases policies.find? _ with
  | none => rfl
  | some policy => rfl

def lastVersion (policies : List VersionPolicy) (server : ServerInfo) : Option BmcVersion :=
  (policies.filter fun policy => versionPolicyMatched policy.select server.serverTag
    server.serverType server.serverClass).getLast?.map VersionPolicy.bmcVersion

lemma lookup_applyVersionPolicies {queryId other : Text} {policies : List VersionPolicy} :
    ∀ versions : HashMap Text BmcVersion,
      (applyVersionPolicies queryId server.serverTag server.serverType server.serverClass policies
          versions).lookup other =
        if other = queryId then (lastVersion policies server).or (versions.lookup other)
        else versions.lookup other := by
  induction policies using reverseRecOn with
  | nil =>
    intro versions
    simp [applyVersionPolicies, lastVersion]
  | append_singleton policies policy ih =>
    intro versions
    have split := ih versions
    unfold applyVersionPolicies lastVersion at split ⊢
    rw [foldl_append, foldl_cons, foldl_nil]
    by_cases matched : versionPolicyMatched policy.select server.serverTag server.serverType
        server.serverClass = true
    · rw [if_pos matched, HashMap.lookup_assign, split]
      by_cases same : other = queryId
      · simp [same, matched]
      · simp [same]
    · rw [if_neg matched, split]
      simp [matched]

lemma lookup_foldl_applyVersionPolicies {queryId : Text}
    {entries : List (Text × List VersionPolicy)} (distinct : (entries.map Prod.fst).Nodup) :
    ∀ versions : HashMap Text BmcVersion,
      (entries.foldl (fun found entry => applyVersionPolicies entry.1 server.serverTag
          server.serverType server.serverClass entry.2 found) versions).lookup queryId =
        ((entries.lookup queryId).bind fun policies => lastVersion policies server).or
          (versions.lookup queryId) := by
  induction entries with
  | nil => exact fun versions => rfl
  | cons entry rest ih =>
    intro versions
    rcases entry with ⟨first, policies⟩
    rcases nodup_cons.mp distinct with ⟨absent, distinctRest⟩
    rw [foldl_cons, ih distinctRest, lookup_applyVersionPolicies, lookup_cons]
    by_cases same : queryId = first
    · subst same
      have nowhere : rest.lookup queryId = none := by
        rw [<- not_isSome_iff_eq_none, lookup_isSome_iff]
        exact absent
      simp [nowhere]
    · simp [same, beq_false_of_ne same]

lemma lookup_getQueryIdToBmcVersion (routerSpec : QueryRouterSpec) (server : ServerInfo)
    (queryId : Text) :
    (getQueryIdToBmcVersionFromRouterSpec routerSpec server.serverTag server.serverType
        server.serverClass).lookup queryId =
      (routerSpec.queryIdToVersionConfig.lookup queryId).bind fun policies =>
        lastVersion policies server := by
  unfold getQueryIdToBmcVersionFromRouterSpec
  rw [lookup_foldl_applyVersionPolicies routerSpec.queryIdToVersionConfig.distinct]
  exact or_none

/-- A selection for queries matches the server just if `selected`. -/
def SelectsForQueries (select : SelectionClass) (server : ServerInfo) (selected : Prop)
    [Decidable selected] : Prop :=
  ∀ (World : Type) (executeFn : World -> Status × World) (world : World),
    executeOnMatchingSelections server.serverTag server.serverType (some server.serverClass)
        executeFn [select] world =
      executeTimes executeFn (if selected then 1 else 0) world

/-- A version policy matches the server just if `selected`. -/
def SelectsForVersions (select : SelectionClass) (server : ServerInfo) (selected : Prop)
    [Decidable selected] : Prop :=
  ∀ (routerSpec : QueryRouterSpec) (queryId : Text) (version : BmcVersion),
    routerSpec.queryIdToVersionConfig.lookup queryId = some [⟨select, version⟩] ->
    (getQueryIdToBmcVersionFromRouterSpec routerSpec server.serverTag server.serverType
      server.serverClass).lookup queryId = if selected then some version else none

/-- A policy of stable ids matches the server just if `selected`. -/
def SelectsForStableIds (select : SelectionClass) (server : ServerInfo) (selected : Prop)
    [Decidable selected] : Prop :=
  ∀ (routerSpec : QueryRouterSpec) (stableIdType : StableIdType) (path : Text),
    routerSpec.stableIdConfig = some [⟨select, stableIdType, path⟩] ->
    getStableIdTypeFromRouterSpec routerSpec server.serverTag server.serverType
      server.serverClass = if selected then stableIdType else routerSpec.defaultStableIdType

lemma iff_of_ite_eq {Value : Type} {first second : Value} {left right : Prop} [Decidable left]
    [Decidable right] (differ : first ≠ second)
    (same : (if left then first else second) = if right then first else second) : left ↔ right := by
  by_cases isLeft : left
  · by_cases isRight : right
    · exact ⟨fun _ => isRight, fun _ => isLeft⟩
    · rw [if_pos isLeft, if_neg isRight] at same
      exact absurd same differ
  · by_cases isRight : right
    · rw [if_neg isLeft, if_pos isRight] at same
      exact absurd same.symm differ
    · exact ⟨fun given => absurd given isLeft, fun given => absurd given isRight⟩

variable {selected : Prop}

lemma selectsForQueries_iff [Decidable selected] {matched : Bool}
    (decided : selectionMatched select server.serverTag server.serverType
      (some server.serverClass) = .ok matched) :
    SelectsForQueries select server selected ↔ (matched = true ↔ selected) := by
  have runs : ∀ (World : Type) (executeFn : World -> Status × World) (world : World),
      executeOnMatchingSelections server.serverTag server.serverType (some server.serverClass)
        executeFn [select] world = executeTimes executeFn (if matched then 1 else 0) world := by
    intro World executeFn world
    have counted : executeOnMatchingSelections server.serverTag server.serverType
        (some server.serverClass) executeFn [select] world =
        executeTimes executeFn ([select].countP fun _ => matched) world :=
      executeOnMatchingSelections_eq (by simpa using decided) world
    rw [counted, countP_cons, countP_nil, Nat.zero_add]
  constructor
  · intro selects
    -- Count the calls.
    have calls := selects Nat (fun count => (.okStatus, count + 1)) 0
    rw [runs, apply_ite (fun times => executeTimes _ times 0),
      apply_ite (fun times => executeTimes _ times 0)] at calls
    exact iff_of_ite_eq (by simp [executeTimes]) calls
  · intro same World executeFn world
    rw [runs]
    simp only [same]

lemma selectsForVersions_iff [Decidable selected] :
    SelectsForVersions select server selected ↔
      (versionPolicyMatched select server.serverTag server.serverType server.serverClass = true ↔
        selected) := by
  have found : ∀ version : BmcVersion, lastVersion [⟨select, version⟩] server =
      if versionPolicyMatched select server.serverTag server.serverType server.serverClass = true
      then some version else none := by
    intro version
    unfold lastVersion
    by_cases matched : versionPolicyMatched select server.serverTag server.serverType
        server.serverClass = true
    · simp [matched]
    · simp [matched]
  constructor
  · intro selects
    have only := selects
      { stableIdConfig := none
        defaultStableIdType := .none
        queryIdToVersionConfig := .assign .empty [] [⟨select, ⟨none, none⟩⟩] }
      [] ⟨none, none⟩ (by rw [HashMap.lookup_assign]; rfl)
    rw [lookup_getQueryIdToBmcVersion] at only
    simp only [HashMap.lookup_assign, beq_self_eq_true, if_true, bind_some, found] at only
    exact iff_of_ite_eq (some_ne_none _) only
  · intro same routerSpec queryId version config
    rw [lookup_getQueryIdToBmcVersion, config, bind_some, found]
    simp only [same]

lemma selectsForStableIds_iff [Decidable selected] :
    SelectsForStableIds select server selected ↔
      (stableIdPolicyMatched select server.serverTag server.serverType server.serverClass = true ↔
        selected) := by
  have chosen : ∀ (routerSpec : QueryRouterSpec) (stableIdType : StableIdType) (path : Text),
      routerSpec.stableIdConfig = some [⟨select, stableIdType, path⟩] ->
      getStableIdTypeFromRouterSpec routerSpec server.serverTag server.serverType
        server.serverClass =
        if stableIdPolicyMatched select server.serverTag server.serverType server.serverClass = true
        then stableIdType else routerSpec.defaultStableIdType := by
    intro routerSpec stableIdType path config
    rw [getStableIdTypeFromRouterSpec_eq config]
    by_cases matched : stableIdPolicyMatched select server.serverTag server.serverType
        server.serverClass = true
    · simp [matched]
    · simp [matched]
  constructor
  · intro selects
    have only := selects
      { stableIdConfig := some [⟨select, .redfishLocation, []⟩]
        defaultStableIdType := .none
        queryIdToVersionConfig := .empty }
      .redfishLocation [] rfl
    rw [chosen _ _ _ rfl] at only
    exact iff_of_ite_eq StableIdType.noConfusion only
  · intro same routerSpec stableIdType path config
    rw [chosen routerSpec stableIdType path config]
    simp only [same]

/-- The selections that the three matchers read alike. -/
inductive SelectionClass.ReadAlike (select : SelectionClass) (server : ServerInfo) : Prop where
  | otherType (typeSelect : ServerType) (given : select.serverType = some typeSelect)
      (differs : typeSelect ≠ server.serverType)
  | selected (holds : select.Holds server)
      (listed : select.serverTag ≠ [] ∨ select.serverClass ≠ [])
  | otherTag (given : select.serverTag ≠ []) (tag : server.serverTag ∉ select.serverTag)
      (serverClass : server.serverClass ∉ select.serverClass)
  | otherClass (untagged : select.serverTag = []) (given : select.serverClass ≠ [])
      (serverClass : server.serverClass ∉ select.serverClass)
      (nodeClass : ∀ classSelect ∈ select.nodeClass,
        serverClassFromNodeClass classSelect ≠ server.serverClass)

lemma stableIdPolicyMatched_iff :
    stableIdPolicyMatched select server.serverTag server.serverType server.serverClass = true ↔
      policyTypeMatched select server.serverType = true ∧
        (server.serverClass ∈ select.serverClass ∨ server.serverTag ∈ select.serverTag) := by
  unfold stableIdPolicyMatched
  rw [Bool.and_eq_true, Bool.or_eq_true, contains_iff_mem, contains_iff_mem]

lemma not_policyTypeMatched_iff : ¬ policyTypeMatched select server.serverType = true ↔
      ∃ typeSelect, select.serverType = some typeSelect ∧ typeSelect ≠ server.serverType := by
  rw [policyTypeMatched_iff]
  push Not
  exact .rfl

lemma readAlike_of_rejected (query : ¬ (serverTagMatched select server.serverTag = true ∧
      (if select.nodeClass.isEmpty then serverClassMatched select server
        else nodeClassMatched select server) = true))
    (version : ¬ (serverTagMatched select server.serverTag = true ∧
      serverClassMatched select server = true))
    (stableId : ¬ (server.serverClass ∈ select.serverClass ∨ server.serverTag ∈ select.serverTag)) :
    select.ReadAlike server := by
  push Not at stableId
  rcases stableId with ⟨otherClass, otherTag⟩
  by_cases untagged : select.serverTag = []
  · have tagged : serverTagMatched select server.serverTag = true :=
      serverTagMatched_iff.mpr fun given => absurd untagged given
    have rejected : ¬ serverClassMatched select server = true := fun isClass =>
      version ⟨tagged, isClass⟩
    rw [serverClassMatched_iff] at rejected
    push Not at rejected
    apply SelectionClass.ReadAlike.otherClass untagged rejected.1 otherClass
    intro classSelect inside same
    apply query
    refine ⟨tagged, ?_⟩
    have nonempty : select.nodeClass.isEmpty = false := by
      cases classes : select.nodeClass with
      | nil => exact absurd (classes ▸ inside) not_mem_nil
      | cons first rest => rfl
    rw [nonempty]
    exact nodeClassMatched_iff.mpr fun _ => ⟨classSelect, inside, same⟩
  · exact .otherTag untagged otherTag otherClass

/-- Exactly the selections that are read alike are matched everywhere as the message
promises. -/
theorem matchers_agree_iff : ∀ (select : SelectionClass) (server : ServerInfo),
    select.Valid ->
    ((SelectsForQueries select server (select.Holds server) ∧
        SelectsForVersions select server (select.Holds server) ∧
        SelectsForStableIds select server (select.Holds server)) ↔
      select.ReadAlike server) := by
  intro select server valid
  rw [selectsForQueries_iff (selectionMatched_valid valid), selectsForVersions_iff,
    selectsForStableIds_iff, versionPolicyMatched_eq, stableIdPolicyMatched_iff]
  simp only [Bool.and_eq_true, and_assoc]
  have promised : select.Holds server ↔ policyTypeMatched select server.serverType = true ∧
      serverTagMatched select server.serverTag = true ∧ serverClassMatched select server = true ∧
        nodeClassMatched select server = true := by
    rw [holds_iff]
    simp only [Bool.and_eq_true, and_assoc]
  constructor
  · rintro ⟨query, version, stableId⟩
    by_cases ofType : policyTypeMatched select server.serverType = true
    · by_cases holds : select.Holds server
      · have listed := (stableId.mpr holds).2
        apply SelectionClass.ReadAlike.selected holds
        rcases listed with ofClass | ofTag
        · exact .inr (List.ne_nil_of_mem ofClass)
        · exact .inl (List.ne_nil_of_mem ofTag)
      · exact readAlike_of_rejected
          (fun taken => holds (query.mp ⟨ofType, taken⟩))
          (fun taken => holds (version.mp ⟨ofType, taken⟩))
          (fun taken => holds (stableId.mp ⟨ofType, taken⟩))
    · rcases not_policyTypeMatched_iff.mp ofType with ⟨typeSelect, given, differs⟩
      exact .otherType typeSelect given differs
  · intro alike
    cases alike with
    | otherType typeSelect given differs =>
      have rejected := not_policyTypeMatched_iff.mpr ⟨typeSelect, given, differs⟩
      simp [promised, rejected]
    | selected holds listed =>
      have all := promised.mp holds
      have named : server.serverClass ∈ select.serverClass ∨
          server.serverTag ∈ select.serverTag := by
        rcases listed with tags | classes
        · exact .inr (holds.serverTag tags)
        · exact .inl (holds.serverClass classes)
      simp [promised, all, named]
    | otherTag given tag serverClass =>
      have rejected : ¬ serverTagMatched select server.serverTag = true := fun matched =>
        tag (serverTagMatched_iff.mp matched given)
      simp [promised, rejected, tag, serverClass]
    | otherClass untagged given serverClass nodeClass =>
      have rejected : ¬ serverClassMatched select server = true := fun matched =>
        serverClass (serverClassMatched_iff.mp matched given)
      have otherNode : policyTypeMatched select server.serverType = true ->
          serverTagMatched select server.serverTag = true -> ¬ select.nodeClass = [] ->
          nodeClassMatched select server = false := by
        intro _ _ nonempty
        apply Bool.eq_false_iff.mpr
        intro matched
        rcases nodeClassMatched_iff.mp matched nonempty with ⟨classSelect, inside, same⟩
        exact nodeClass classSelect inside same
      simpa [promised, rejected, untagged, serverClass] using otherNode

/-- A server with one of the tags is selected everywhere. -/
theorem matchers_agree_at_a_tag :
    (SelectsForQueries ⟨none, [text "server_1"], [], []⟩ ⟨text "server_1", .bmcweb, .compute⟩
        (SelectionClass.Holds ⟨none, [text "server_1"], [], []⟩
          ⟨text "server_1", .bmcweb, .compute⟩)) ∧
      SelectionClass.ReadAlike ⟨none, [text "server_1"], [], []⟩
        ⟨text "server_1", .bmcweb, .compute⟩ := by
  have alike : SelectionClass.ReadAlike ⟨none, [text "server_1"], [], []⟩
      ⟨text "server_1", .bmcweb, .compute⟩ := .selected (by decide) (.inl (by decide))
  have valid : SelectionClass.Valid ⟨none, [text "server_1"], [], []⟩ :=
    ⟨by decide, by decide, by decide, by decide⟩
  exact ⟨((matchers_agree_iff _ _ valid).mpr alike).1, alike⟩

/-- A selection by type alone selects no server for the policies of the stable ids. -/
theorem matchers_disagree :
    ¬ ∀ (select : SelectionClass) (server : ServerInfo), select.Valid ->
      SelectsForQueries select server (select.Holds server) ∧
        SelectsForVersions select server (select.Holds server) ∧
        SelectsForStableIds select server (select.Holds server) := by
  intro agree
  have selects := (agree ⟨some .bmcweb, [], [], []⟩ ⟨text "server_1", .bmcweb, .compute⟩
    ⟨by decide, by decide, by decide, by decide⟩).2.2
  exact absurd (selectsForStableIds_iff.mp selects) (by decide)

end Ecclesia.Router
