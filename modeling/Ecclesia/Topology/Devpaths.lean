import Ecclesia.Library.Rounds
import Ecclesia.Topology.Assemblies

namespace Ecclesia.Topology

open List

/-!
# Devpaths

The first reference of an assembly names the component that it is attached to, and an
assembly without references is a root.  Devpaths are given out in rounds over the assemblies,
where an assembly waits until the component it is attached to has been given one.

Which assemblies are given devpaths, and which ones, depends on the references alone: on the
chain of components that leads from an assembly to a root.
-/

def kDevpathRoot : Text := text "/phys"

def kDevpathConnectorSuffix : Text := text "connector:"

def kDevpathDeviceSuffix : Text := text "device:"

def generateLocalDevpath (component : Component) (upstreamConnectorSequence : Text) : Text :=
  match component.type with
  | .board => upstreamConnectorSequence
  | .cable => upstreamConnectorSequence
  | .connector =>
    upstreamConnectorSequence ++ text ":" ++ kDevpathConnectorSuffix ++ component.name
  | .device => upstreamConnectorSequence ++ text ":" ++ kDevpathDeviceSuffix ++ component.name

def generateDevpathsForComponents (components : List Component)
    (upstreamConnectorSequence : Text) : List Component :=
  components.map fun component =>
    { component with
      upstreamConnectorSequence := upstreamConnectorSequence
      localDevpath := generateLocalDevpath component upstreamConnectorSequence }

def withDevpaths (upstreamConnectorSequence : Text) (assembly : Assembly) : Assembly :=
  { assembly with
    components := generateDevpathsForComponents assembly.components upstreamConnectorSequence }

/-- `upstream_connector_sequence`, unless the reference has to wait for its component. -/
def upstreamSequence (odataIdToComponent : HashMap Text Component) (assembly : Assembly) :
    Option Text :=
  match assembly.upstreamOdataIds with
  | [] => some kDevpathRoot
  | odataId :: _ =>
    match odataIdToComponent.lookup odataId with
    | none => none
    | some upstreamComponent =>
      some (upstreamComponent.upstreamConnectorSequence ++ text "/" ++ upstreamComponent.name)

def enterComponents (odataIdToComponent : HashMap Text Component) (components : List Component) :
    HashMap Text Component :=
  components.foldl (fun map component => map.assign component.odataId component) odataIdToComponent

/-- The loop over the assemblies.  An assembly has been processed when it is settled. -/
def devpathRounds : Rounds (HashMap Text Component) Assembly Assembly where
  settle odataIdToComponent assembly :=
    match upstreamSequence odataIdToComponent assembly with
    | none => none
    | some sequence =>
      let processed := withDevpaths sequence assembly
      some (enterComponents odataIdToComponent processed.components, processed)

/-- The assemblies at the end of the rounds, with those that were processed. -/
def processAssemblies (assemblies : List Assembly) : List (Slot Assembly Assembly) :=
  (devpathRounds.run .empty (assemblies.map .waiting)).2

def generateDevpaths (assemblies : List Assembly) : List Assembly :=
  (processAssemblies assemblies).map fun slot => slot.result.getD slot.item

def DistinctOdataIds (assemblies : List Assembly) : Prop :=
  ((assemblies.flatMap Assembly.components).map Component.odataId).Nodup

/-- The first references lead from an assembly through these components to a root. -/
inductive AttachedThrough (assemblies : List Assembly) : Assembly -> List Component -> Prop where
  | root {assembly : Assembly} (unattached : assembly.upstreamOdataIds = []) :
      AttachedThrough assemblies assembly []
  | step {assembly upstream : Assembly} {connector : Component} {chain : List Component}
      {others : List Text}
      (attached : assembly.upstreamOdataIds = connector.odataId :: others)
      (listed : upstream ∈ assemblies) (part : connector ∈ upstream.components)
      (rest : AttachedThrough assemblies upstream chain) :
      AttachedThrough assemblies assembly (connector :: chain)

/-- The root, followed by the names of the components down a chain. -/
def connectorSequence (chain : List Component) : Text :=
  kDevpathRoot ++ chain.reverse.flatMap fun connector => text "/" ++ connector.name

lemma connectorSequence_cons (connector : Component) (chain : List Component) :
    connectorSequence (connector :: chain) =
      connectorSequence chain ++ text "/" ++ connector.name := by
  unfold connectorSequence
  simp only [reverse_cons, flatMap_append, flatMap_singleton, append_assoc]

variable {assemblies : List Assembly}

variable {chain : List Component}

lemma AttachedThrough.mono {others : List Assembly} (subset : assemblies ⊆ others)
    {assembly : Assembly} (attached : AttachedThrough assemblies assembly chain) :
    AttachedThrough others assembly chain := by
  induction attached with
  | root unattached => exact .root unattached
  | step attached listed part _ ih => exact .step attached (subset listed) part ih

section

variable {assemblies : List Assembly} (distinct : DistinctOdataIds assemblies)

include distinct

lemma DistinctOdataIds.component {first second : Assembly} {left right : Component}
    (isFirst : first ∈ assemblies) (isSecond : second ∈ assemblies)
    (isLeft : left ∈ first.components) (isRight : right ∈ second.components)
    (same : left.odataId = right.odataId) : left = right :=
  inj_on_of_nodup_map distinct (mem_flatMap.mpr ⟨first, isFirst, isLeft⟩)
    (mem_flatMap.mpr ⟨second, isSecond, isRight⟩) same

lemma DistinctOdataIds.assembly {first second : Assembly} {component : Component}
    (isFirst : first ∈ assemblies) (isSecond : second ∈ assemblies)
    (inFirst : component ∈ first.components) (inSecond : component ∈ second.components) :
    first = second := by
  have once : (assemblies.flatMap Assembly.components).Nodup := Nodup.of_map _ distinct
  have apart := (nodup_flatMap.mp once).2
  by_contra different
  have symmetric : Std.Symm (Function.onFun List.Disjoint Assembly.components) :=
    ⟨fun _ _ => List.Disjoint.symm⟩
  exact apart.forall isFirst isSecond different inFirst inSecond

lemma DistinctOdataIds.components {assembly : Assembly} (listed : assembly ∈ assemblies) :
    (assembly.components.map Component.odataId).Nodup := by
  have once := distinct
  unfold DistinctOdataIds at once
  rw [map_flatMap] at once
  exact (nodup_flatMap.mp once).1 assembly listed

lemma AttachedThrough.unique {assembly : Assembly} {other : List Component}
    (attached : AttachedThrough assemblies assembly chain)
    (attachedToo : AttachedThrough assemblies assembly other) : chain = other := by
  induction attached generalizing other with
  | root unattached =>
    cases attachedToo with
    | root _ => rfl
    | step attached _ _ _ =>
      rw [unattached] at attached
      cases attached
  | step attached listed part _ ih =>
    cases attachedToo with
    | root unattached =>
      rw [unattached] at attached
      cases attached
    | step attachedToo listedToo partToo rest =>
      rw [attached] at attachedToo
      injection attachedToo with sameId _
      have sameConnector := distinct.component listed listedToo part partToo sameId
      subst sameConnector
      have sameUpstream := distinct.assembly listed listedToo part partToo
      subst sameUpstream
      rw [ih rest]

end

lemma odataIds_generateDevpathsForComponents (components : List Component) (sequence : Text) :
    (generateDevpathsForComponents components sequence).map Component.odataId =
      components.map Component.odataId := by
  unfold generateDevpathsForComponents
  rw [map_map]
  exact map_congr_left fun _ _ => rfl

lemma mem_keys_enterComponents (components : List Component) (odataId : Text) :
    ∀ odataIdToComponent : HashMap Text Component,
      odataId ∈ (enterComponents odataIdToComponent components).keys ↔
        odataId ∈ components.map Component.odataId ∨ odataId ∈ odataIdToComponent.keys := by
  induction components with
  | nil =>
    intro odataIdToComponent
    simp [enterComponents]
  | cons component rest ih =>
    intro odataIdToComponent
    have entered := ih (odataIdToComponent.assign component.odataId component)
    rw [HashMap.mem_keys_assign] at entered
    rw [map_cons, mem_cons, or_assoc, or_left_comm]
    exact entered

/-- The components of the map are those of assemblies that are attached. -/
def Located (assemblies : List Assembly) (odataIdToComponent : HashMap Text Component) : Prop :=
  ∀ odataId found, odataIdToComponent.lookup odataId = some found ->
    ∃ upstream connector chain, upstream ∈ assemblies ∧ connector ∈ upstream.components ∧
      AttachedThrough assemblies upstream chain ∧ connector.odataId = odataId ∧
      found.name = connector.name ∧ found.upstreamConnectorSequence = connectorSequence chain

/-- An assembly was given the devpaths of a chain, and its components are in the map. -/
structure Entered (assemblies : List Assembly) (odataIdToComponent : HashMap Text Component)
    (assembly processed : Assembly) : Prop where
  devpaths : ∃ chain, AttachedThrough assemblies assembly chain ∧
    processed = withDevpaths (connectorSequence chain) assembly
  found : ∀ component ∈ assembly.components, component.odataId ∈ odataIdToComponent.keys

variable {odataIdToComponent : HashMap Text Component}

lemma settle_devpathRounds {after : HashMap Text Component} {assembly processed : Assembly} :
    devpathRounds.settle odataIdToComponent assembly = some (after, processed) ↔
      ∃ sequence, upstreamSequence odataIdToComponent assembly = some sequence ∧
        processed = withDevpaths sequence assembly ∧
        after = enterComponents odataIdToComponent
          (generateDevpathsForComponents assembly.components sequence) := by
  cases known : upstreamSequence odataIdToComponent assembly with
  | none => simp [devpathRounds, known]
  | some sequence =>
    simp only [devpathRounds, known, Option.some.injEq, Prod.mk.injEq, exists_eq_left']
    constructor
    · rintro ⟨isAfter, isProcessed⟩
      exact ⟨isProcessed.symm, isAfter.symm⟩
    · rintro ⟨isProcessed, isAfter⟩
      exact ⟨isAfter.symm, isProcessed.symm⟩

lemma upstreamSequence_attached (located : Located assemblies odataIdToComponent)
    {assembly : Assembly} {sequence : Text}
    (known : upstreamSequence odataIdToComponent assembly = some sequence) :
    ∃ chain, AttachedThrough assemblies assembly chain ∧ sequence = connectorSequence chain := by
  unfold upstreamSequence at known
  cases references : assembly.upstreamOdataIds with
  | nil =>
    rw [references] at known
    refine ⟨[], .root references, ?_⟩
    injection known with isRoot
    exact isRoot.symm
  | cons odataId others =>
    rw [references] at known
    cases lookedUp : odataIdToComponent.lookup odataId with
    | none =>
      simp only [lookedUp] at known
      cases known
    | some upstreamComponent =>
      simp only [lookedUp] at known
      rcases located odataId upstreamComponent lookedUp with
        ⟨upstream, connector, chain, listed, part, attached, rfl, sameName, itsSequence⟩
      refine ⟨connector :: chain, .step references listed part attached, ?_⟩
      rw [connectorSequence_cons, <- sameName, <- itsSequence]
      injection known with isSequence
      exact isSequence.symm

lemma upstreamSequence_eq_none {assembly : Assembly}
    (waits : upstreamSequence odataIdToComponent assembly = none) :
    ∃ odataId others, assembly.upstreamOdataIds = odataId :: others ∧
      odataId ∉ odataIdToComponent.keys := by
  unfold upstreamSequence at waits
  cases references : assembly.upstreamOdataIds with
  | nil =>
    rw [references] at waits
    cases waits
  | cons odataId others =>
    rw [references] at waits
    refine ⟨odataId, others, rfl, ?_⟩
    rw [<- HashMap.lookup_isSome]
    cases lookedUp : odataIdToComponent.lookup odataId with
    | none => exact Bool.false_ne_true
    | some upstreamComponent =>
      simp only [lookedUp] at waits
      cases waits

/-- A turn of the loop enters what belongs to a chain, and what was in the map stays there. -/
lemma devpathRounds_records (distinct : DistinctOdataIds assemblies) :
    devpathRounds.Records assemblies (Located assemblies) (Entered assemblies) := by
  intro odataIdToComponent assembly after processed listed located settles
  rcases settle_devpathRounds.mp settles with ⟨sequence, known, rfl, rfl⟩
  rcases upstreamSequence_attached located known with ⟨chain, attached, rfl⟩
  have sameIds := odataIds_generateDevpathsForComponents assembly.components
    (connectorSequence chain)
  refine ⟨?_, ⟨⟨chain, attached, rfl⟩, ?_⟩, ?_⟩
  · intro odataId found lookedUp
    have once := distinct.components listed
    rw [<- sameIds] at once
    rcases (HashMap.lookup_foldl_assign once _).mp lookedUp with
      ⟨component, isComponent, rfl, rfl⟩ | ⟨_, before⟩
    · rcases mem_map.mp isComponent with ⟨connector, part, rfl⟩
      exact ⟨assembly, connector, chain, listed, part, attached, rfl, rfl, rfl⟩
    · exact located odataId found before
  · intro component part
    rw [mem_keys_enterComponents, sameIds]
    exact .inl (mem_map_of_mem part)
  · intro other otherProcessed entered
    refine ⟨entered.devpaths, ?_⟩
    intro component part
    rw [mem_keys_enterComponents]
    exact .inr (entered.found component part)

lemma items_processAssemblies (assemblies : List Assembly) :
    (processAssemblies assemblies).map Slot.item = assemblies := by
  unfold processAssemblies
  rw [Rounds.items_run, Slot.map_item_waiting]

section

variable (distinct : DistinctOdataIds assemblies)

include distinct

lemma processAssemblies_ends :
    ∃ odataIdToComponent : HashMap Text Component,
      ∀ slot ∈ processAssemblies assemblies,
        (∀ processed, slot.result = some processed ->
          Entered assemblies odataIdToComponent slot.item processed) ∧
        (slot.result = none -> upstreamSequence odataIdToComponent slot.item = none) := by
  have nothing : Located assemblies .empty := by
    intro odataId found lookedUp
    cases lookedUp
  rcases (devpathRounds_records distinct).run_waiting nothing with ⟨kept, stuck⟩
  refine ⟨(devpathRounds.run .empty (assemblies.map .waiting)).1, ?_⟩
  intro slot member
  refine ⟨kept.recorded slot member, ?_⟩
  intro waits
  have unsettled := stuck slot member waits
  cases known : upstreamSequence (devpathRounds.run .empty (assemblies.map .waiting)).1
      slot.item with
  | none => rfl
  | some sequence =>
    rw [settle_devpathRounds.mpr ⟨sequence, known, rfl, rfl⟩] at unsettled
    cases unsettled

/-- Whatever is attached is processed, by induction on its chain. -/
lemma result_isSome_of_attached {assembly : Assembly}
    (attached : AttachedThrough assemblies assembly chain) :
    ∀ slot ∈ processAssemblies assemblies, slot.item = assembly -> slot.result.isSome = true := by
  rcases processAssemblies_ends distinct with ⟨odataIdToComponent, ends⟩
  induction attached with
  | root unattached =>
    intro slot member isItem
    cases outcome : slot.result with
    | some processed => rfl
    | none =>
      rcases upstreamSequence_eq_none ((ends slot member).2 outcome) with
        ⟨odataId, others, references, _⟩
      rw [isItem, unattached] at references
      cases references
  | step isAttached listed part _ ih =>
    intro slot member isItem
    cases outcome : slot.result with
    | some processed => rfl
    | none =>
      rcases upstreamSequence_eq_none ((ends slot member).2 outcome) with
        ⟨odataId, others, references, absent⟩
      rw [isItem, isAttached] at references
      injection references with isId _
      rw [<- items_processAssemblies assemblies] at listed
      rcases mem_map.mp listed with ⟨above, isAbove, itsItem⟩
      rcases Option.isSome_iff_exists.mp (ih above isAbove itsItem) with ⟨processed, isProcessed⟩
      have entered := (ends above isAbove).1 processed isProcessed
      rw [itsItem] at entered
      apply absurd _ absent
      rw [<- isId]
      exact entered.found _ part

lemma result_eq_some_iff {slot : Slot Assembly Assembly}
    (member : slot ∈ processAssemblies assemblies) (processed : Assembly) :
    slot.result = some processed ↔
      ∃ chain, AttachedThrough assemblies slot.item chain ∧
        processed = withDevpaths (connectorSequence chain) slot.item := by
  rcases processAssemblies_ends distinct with ⟨odataIdToComponent, ends⟩
  constructor
  · intro isProcessed
    exact ((ends slot member).1 processed isProcessed).devpaths
  · rintro ⟨chain, attached, rfl⟩
    rcases Option.isSome_iff_exists.mp
      (result_isSome_of_attached distinct attached slot member rfl) with ⟨other, isOther⟩
    rcases ((ends slot member).1 other isOther).devpaths with ⟨found, attachedToo, rfl⟩
    rw [isOther, attachedToo.unique distinct attached]

lemma processAssemblies_perm {others : List Assembly} (permuted : others.Perm assemblies) :
    (processAssemblies others).Perm (processAssemblies assemblies) := by
  have distinctToo : DistinctOdataIds others :=
    ((permuted.flatMap_right Assembly.components).map Component.odataId).nodup_iff.mpr distinct
  apply Slot.perm_of_items
  · rw [items_processAssemblies, items_processAssemblies]
    exact permuted
  · intro first second isFirst isSecond sameItem
    ext processed
    rw [result_eq_some_iff distinctToo isFirst, result_eq_some_iff distinct isSecond, sameItem]
    constructor
    · rintro ⟨chain, attached, isProcessed⟩
      exact ⟨chain, attached.mono permuted.subset, isProcessed⟩
    · rintro ⟨chain, attached, isProcessed⟩
      exact ⟨chain, attached.mono permuted.symm.subset, isProcessed⟩

end

lemma zip_generateDevpaths (assemblies : List Assembly) :
    assemblies.zip (generateDevpaths assemblies) =
      (processAssemblies assemblies).map fun slot => (slot.item, slot.result.getD slot.item) := by
  have zipped : ((processAssemblies assemblies).map Slot.item).zip
      (generateDevpaths assemblies) =
      (processAssemblies assemblies).map fun slot => (slot.item, slot.result.getD slot.item) :=
    zip_map'
  rw [items_processAssemblies] at zipped
  exact zipped

def motherboard : Assembly where
  name := text "motherboard"
  model := []
  components :=
    [⟨text "/board", text "motherboard", [], .board, [], [], []⟩,
      ⟨text "/slot", text "PE0", [], .connector, [], [], []⟩]
  upstreamOdataIds := []

def expansionTray : Assembly where
  name := text "tray"
  model := []
  components := [⟨text "/tray", text "tray", [], .board, [], [], []⟩]
  upstreamOdataIds := [text "/slot"]

end Ecclesia.Topology
