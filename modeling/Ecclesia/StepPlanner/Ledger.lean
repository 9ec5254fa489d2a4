import Ecclesia.StepPlanner.Execution

namespace Ecclesia.StepPlanner

open List

/-!
# The ledger of a streaming session

Every data set that is added is in the result, or it has been cleared.  What is cleared was
sent before, but what stays in the result when it is sent will be sent again, and a child of a
cleared data set is lost.  The invariant of a session says this of all its flushes.  It shows
that everything is delivered once exactly when no flush does harm.
-/

variable {Object Properties : Type}

variable (dataSets : List (SubqueryDataSet Properties))

/-- Every data set lies in one that is there. -/
def IsTree : Prop :=
  ∀ dataSet ∈ dataSets, ∀ address, dataSet.parent = some address ->
    ∃ parent ∈ dataSets, parent.address = address

/-- A data set is younger than the one in which it lies. -/
def ParentsOlder : Prop :=
  ∀ dataSet ∈ dataSets, ∀ address, dataSet.parent = some address -> address < dataSet.address

lemma ParentsOlder.mono {some_ all : List (SubqueryDataSet Properties)} (older : ParentsOlder all)
    (part : ∀ dataSet ∈ some_, dataSet ∈ all) : ParentsOlder some_ :=
  fun dataSet member => older dataSet (part dataSet member)

section

variable {output : SubqueryOutput} {dataSets : List (SubqueryDataSet Properties)}

lemma addressesIn_concat (dataSet : SubqueryDataSet Properties) :
    addressesIn output (dataSets ++ [dataSet]) =
      if (dataSet.parent, dataSet.subqueryId) = output ∨
          dataSet.parent ∈ (addressesIn output dataSets).map some then
        addressesIn output dataSets ++ [dataSet.address]
      else addressesIn output dataSets := by
  unfold addressesIn
  rw [foldl_append]
  rfl

lemma mem_addressesIn {address : Nat} (inside : address ∈ addressesIn output dataSets) :
    ∃ dataSet ∈ dataSets, dataSet.address = address := by
  induction dataSets using reverseRecOn with
  | nil => cases inside
  | append_singleton before last ih =>
    rw [addressesIn_concat] at inside
    have earlier : address ∈ addressesIn output before ->
        ∃ dataSet ∈ before ++ [last], dataSet.address = address := by
      intro found
      rcases ih found with ⟨dataSet, member, same⟩
      exact ⟨dataSet, mem_append_left _ member, same⟩
    split at inside
    · rcases mem_append.mp inside with found | new
      · exact earlier found
      · exact ⟨last, mem_append_right _ (mem_singleton_self last), (mem_singleton.mp new).symm⟩
    · exact earlier inside

lemma lt_of_mem_addressesIn (older : ParentsOlder dataSets) {owner : Nat}
    (owned : output.1 = some owner) {address : Nat}
    (inside : address ∈ addressesIn output dataSets) : owner < address := by
  induction dataSets using reverseRecOn generalizing address with
  | nil => cases inside
  | append_singleton before last ih =>
    have olderBefore : ParentsOlder before :=
      older.mono fun dataSet member => mem_append_left _ member
    have olderLast := older last (mem_append_right _ (mem_singleton_self last))
    rw [addressesIn_concat] at inside
    split at inside
    next holds =>
      rcases mem_append.mp inside with found | new
      · exact ih olderBefore found
      · rw [mem_singleton.mp new]
        rcases holds with direct | below
        · apply olderLast owner
          rw [<- owned, <- direct]
        · rcases mem_map.mp below with ⟨parent, isInside, same⟩
          exact (ih olderBefore isInside).trans (olderLast parent same.symm)
    next => exact ih olderBefore inside

lemma mem_addressesIn_of_parent (older : ParentsOlder dataSets)
    (ordered : dataSets.Pairwise fun first second => first.address < second.address)
    {dataSet : SubqueryDataSet Properties} (member : dataSet ∈ dataSets) {address : Nat}
    (lies : dataSet.parent = some address) (inside : address ∈ addressesIn output dataSets) :
    dataSet.address ∈ addressesIn output dataSets := by
  induction dataSets using reverseRecOn with
  | nil => cases member
  | append_singleton before last ih =>
    rcases pairwise_append.mp ordered with ⟨orderedBefore, _, apart⟩
    have olderBefore : ParentsOlder before :=
      older.mono fun other isOther => mem_append_left _ isOther
    have younger : address < dataSet.address := older dataSet member address lies
    have notLast : address ≠ last.address := by
      rintro rfl
      rcases mem_append.mp member with earlier | isLast
      · have := apart dataSet earlier last (mem_singleton_self last)
        omega
      · rw [mem_singleton.mp isLast] at younger
        omega
    have insideBefore : address ∈ addressesIn output before := by
      rw [addressesIn_concat] at inside
      split at inside
      · rcases mem_append.mp inside with found | new
        · exact found
        · exact absurd (mem_singleton.mp new) notLast
      · exact inside
    rw [addressesIn_concat]
    rcases mem_append.mp member with earlier | isLast
    · have found := ih olderBefore orderedBefore earlier insideBefore
      split
      · exact mem_append_left _ found
      · exact found
    · have same : dataSet = last := mem_singleton.mp isLast
      rw [<- same, if_pos (.inr (lies ▸ mem_map_of_mem insideBefore))]
      exact mem_append_right _ (mem_singleton_self _)

lemma IsTree.clear (tree : IsTree dataSets) (older : ParentsOlder dataSets)
    (ordered : dataSets.Pairwise fun first second => first.address < second.address) :
    IsTree (dataSets.filter fun dataSet => dataSet.address ∉ addressesIn output dataSets) := by
  intro dataSet member address lies
  rcases mem_filter.mp member with ⟨present, outside⟩
  rcases tree dataSet present address lies with ⟨parent, isParent, same⟩
  refine ⟨parent, mem_filter.mpr ⟨isParent, ?_⟩, same⟩
  apply decide_eq_true
  intro inside
  rw [same] at inside
  exact of_decide_eq_true outside (mem_addressesIn_of_parent older ordered present lies inside)

end

def Flush.Clears (flush : Flush Properties) (dataSet : SubqueryDataSet Properties) : Prop :=
  dataSet.address ∈ addressesIn flush.output flush.result.dataSets

variable (session : Session Object Properties)

/-- A flush is harmless if it is for an output of the result, clears all that was sent, and this
gets no child later. -/
structure HarmlessFlush (flush : Flush Properties) :
    Prop where
  atTop : flush.output.1 = none
  clears : ∀ dataSet ∈ flush.result.dataSets, flush.Clears dataSet
  finished : ∀ later ∈ session.added, flush.address <= later.address ->
    ∀ dataSet ∈ flush.result.dataSets, later.parent ≠ some dataSet.address

/-- No flush does harm. -/
def Harmless : Prop :=
  ∀ flush ∈ session.flushes, HarmlessFlush session flush

/-- The data sets in the results that the callback gets. -/
def Session.deliveredDataSets : List (SubqueryDataSet Properties) :=
  session.deliveredResults.flatMap DelliciusQueryResult.dataSets

/-- What a session knows of a flush. -/
structure Flushed (flush : Flush Properties) : Prop where
  tree : IsTree flush.result.dataSets
  part : ∀ dataSet ∈ flush.result.dataSets, dataSet ∈ session.added
  early : flush.address <= session.added.length
  owner : ∀ address, flush.output.1 = some address ->
    (∃ dataSet ∈ flush.result.dataSets, dataSet.address = address) ∨
      session.strayed ≠ [] ∨ flush.address = session.added.length ∧ address ∈ session.cleared
  twice : ∀ dataSet ∈ flush.result.dataSets, ¬ flush.Clears dataSet ->
    2 <= (session.deliveredDataSets.map SubqueryDataSet.address).count dataSet.address
  gone : ∀ dataSet ∈ flush.result.dataSets, flush.Clears dataSet ->
    dataSet.address ∈ session.cleared
  lost : ∀ later ∈ session.added, flush.address <= later.address ->
    ∀ dataSet ∈ flush.result.dataSets, flush.Clears dataSet ->
      later.parent = some dataSet.address -> session.strayed ≠ []

/-- The invariant of a session. -/
structure Kept : Prop where
  numbered : session.added.map SubqueryDataSet.address = List.range session.added.length
  older : ParentsOlder session.added
  held : session.result.dataSets.Sublist session.added
  known : ∀ address, address < session.added.length -> address ∈ session.cleared ∨
    ∃ dataSet ∈ session.result.dataSets, dataSet.address = address
  tree : IsTree session.result.dataSets
  forgotten : ∀ address ∈ session.cleared,
    (∃ dataSet ∈ session.strayed, dataSet.address = address) ∨
      ∃ flush ∈ session.flushes, ∃ dataSet ∈ flush.result.dataSets, dataSet.address = address
  flushed : ∀ flush ∈ session.flushes, Flushed session flush
  even : Harmless session -> session.strayed = [] ∧ session.deliveredDataSets = session.added

/-- An output whose data set has been added. -/
def Session.Knows (output : SubqueryOutput) : Prop :=
  ∀ address, output.1 = some address -> address < session.added.length

namespace Kept

variable {session : Session Object Properties} (kept : Kept session)

include kept

lemma address_lt {dataSet : SubqueryDataSet Properties} (member : dataSet ∈ session.added) :
    dataSet.address < session.added.length := by
  rw [<- mem_range, <- kept.numbered]
  exact mem_map_of_mem member

lemma ordered :
    session.result.dataSets.Pairwise fun first second => first.address < second.address := by
  have all : session.added.Pairwise fun first second => first.address < second.address := by
    rw [<- pairwise_map, kept.numbered]
    exact pairwise_lt_range
  exact all.sublist kept.held

lemma olderHeld : ParentsOlder session.result.dataSets :=
  kept.older.mono fun _ member => kept.held.subset member

end Kept

lemma kept_start (queryId : Text) : Kept (.start queryId : Session Object Properties) where
  numbered := rfl
  older _ member := absurd member not_mem_nil
  held := .slnil
  known _ impossible := absurd impossible (Nat.not_lt_zero _)
  tree _ member := absurd member not_mem_nil
  forgotten _ member := absurd member not_mem_nil
  flushed _ member := absurd member not_mem_nil
  even _ := ⟨rfl, rfl⟩

section

variable {session : Session Object Properties} {output : SubqueryOutput}

lemma deliveredDataSets_flush :
    (session.flush output).deliveredDataSets =
      session.deliveredDataSets ++ (session.flush output).result.dataSets := by
  simp only [Session.deliveredDataSets, Session.deliveredResults, Session.delivered,
    Session.flush, Session.clearOutput, map_append, map_singleton, flatMap_append,
    flatMap_singleton]

lemma Harmless.before {after : Session Object Properties} (harmless : Harmless after)
    (flushes : ∀ flush ∈ session.flushes, flush ∈ after.flushes)
    (added : ∀ dataSet ∈ session.added, dataSet ∈ after.added) : Harmless session := by
  intro flush member
  have harmlessFlush := harmless flush (flushes flush member)
  exact ⟨harmlessFlush.atTop, harmlessFlush.clears,
    fun later isLater => harmlessFlush.finished later (added later isLater)⟩

lemma Flushed.afterFlush {flush : Flush Properties} (flushed : Flushed session flush) :
    Flushed (session.flush output) flush where
  tree := flushed.tree
  part := flushed.part
  early := flushed.early
  owner address owned := by
    rcases flushed.owner address owned with found | strays | ⟨last, cleared⟩
    · exact .inl found
    · exact .inr (.inl strays)
    · exact .inr (.inr ⟨last, mem_append_left _ cleared⟩)
  twice dataSet member stays := by
    rw [deliveredDataSets_flush, map_append, count_append]
    exact (flushed.twice dataSet member stays).trans (Nat.le_add_right _ _)
  gone dataSet member cleared := mem_append_left _ (flushed.gone dataSet member cleared)
  lost := flushed.lost

lemma Kept.flushed_self (kept : Kept session) (knows : session.Knows output) :
    Flushed (session.flush output) ⟨session.result, output, session.added.length⟩ where
  tree := kept.tree
  part _ member := kept.held.subset member
  early := le_refl _
  owner address owned := by
    rcases kept.known address (knows address owned) with cleared | found
    · exact .inr (.inr ⟨rfl, mem_append_left _ cleared⟩)
    · exact .inl found
  twice dataSet member stays := by
    have sent : dataSet.address ∈ session.deliveredDataSets.map SubqueryDataSet.address := by
      apply mem_map_of_mem
      rw [Session.deliveredDataSets, Session.deliveredResults, flatMap_append, flatMap_singleton]
      exact mem_append_right _ member
    have kept_ : dataSet.address ∈
        (session.flush output).result.dataSets.map SubqueryDataSet.address := by
      apply mem_map_of_mem
      exact mem_filter.mpr ⟨member, decide_eq_true stays⟩
    rw [deliveredDataSets_flush, map_append, count_append]
    have once := count_pos_iff.mpr sent
    have again := count_pos_iff.mpr kept_
    omega
  gone dataSet member cleared := mem_append_right _ cleared
  lost later isLater after := by
    have young := kept.address_lt isLater
    exact absurd after (Nat.not_le_of_lt young)

lemma Kept.flush (kept : Kept session) (knows : session.Knows output) :
    Kept (session.flush output) where
  numbered := kept.numbered
  older := kept.older
  held := filter_sublist.trans kept.held
  known address bounded := by
    rcases kept.known address bounded with cleared | ⟨dataSet, member, same⟩
    · exact .inl (mem_append_left _ cleared)
    · by_cases inside : address ∈ addressesIn output session.result.dataSets
      · exact .inl (mem_append_right _ inside)
      · refine .inr ⟨dataSet, mem_filter.mpr ⟨member, ?_⟩, same⟩
        exact decide_eq_true (same ▸ inside)
  tree := kept.tree.clear kept.olderHeld kept.ordered
  forgotten address isCleared := by
    rcases mem_append.mp isCleared with before | inside
    · rcases kept.forgotten address before with stray | ⟨flush, member, sent⟩
      · exact .inl stray
      · exact .inr ⟨flush, mem_append_left _ member, sent⟩
    · exact .inr ⟨_, mem_append_right _ (mem_singleton_self _), mem_addressesIn inside⟩
  flushed flush member := by
    rcases mem_append.mp member with before | last
    · exact (kept.flushed flush before).afterFlush
    · rw [mem_singleton.mp last]
      exact kept.flushed_self knows
  even harmless := by
    have before : Harmless session :=
      harmless.before (fun flush member => mem_append_left _ member) fun _ member => member
    have last := harmless ⟨session.result, output, session.added.length⟩
      (mem_append_right _ (mem_singleton_self _))
    have nothing : (session.flush output).result.dataSets = [] := by
      apply filter_eq_nil_iff.mpr
      intro dataSet member
      have inside : dataSet.address ∈ addressesIn output session.result.dataSets :=
        last.clears dataSet member
      simpa using inside
    rcases kept.even before with ⟨noStray, delivered⟩
    refine ⟨noStray, ?_⟩
    rw [deliveredDataSets_flush, nothing, append_nil, delivered]
    rfl

/-- What `addDataSet` does when the data set is added to one that is there, or to the result. -/
lemma addDataSet_of_there (there : output.1 ∉ session.cleared.map some)
    (content : DataSetContent Properties) :
    session.addDataSet output content =
      { session with
        added := session.added ++ [⟨session.added.length, output.2, output.1, content⟩]
        result := { session.result with
          dataSets := session.result.dataSets ++
            [⟨session.added.length, output.2, output.1, content⟩] } } :=
  if_neg there

/-- What `addDataSet` does when the data set is added to one that has been cleared. -/
lemma addDataSet_of_cleared (cleared : output.1 ∈ session.cleared.map some)
    (content : DataSetContent Properties) :
    session.addDataSet output content =
      { session with
        added := session.added ++ [⟨session.added.length, output.2, output.1, content⟩]
        cleared := session.cleared ++ [session.added.length]
        strayed := session.strayed ++ [⟨session.added.length, output.2, output.1, content⟩] } :=
  if_pos cleared

@[simp] lemma added_addDataSet (content : DataSetContent Properties) :
    (session.addDataSet output content).added =
      session.added ++ [⟨session.added.length, output.2, output.1, content⟩] := by
  by_cases cleared : output.1 ∈ session.cleared.map some
  · rw [addDataSet_of_cleared cleared]
  · rw [addDataSet_of_there cleared]

@[simp] lemma flushes_addDataSet (content : DataSetContent Properties) :
    (session.addDataSet output content).flushes = session.flushes := by
  by_cases cleared : output.1 ∈ session.cleared.map some
  · rw [addDataSet_of_cleared cleared]
  · rw [addDataSet_of_there cleared]

section

variable (kept : Kept session)

include kept

/-- The addresses and parents after an addition, wherever it goes. -/
lemma Kept.numbered_concat (dataSet : SubqueryDataSet Properties)
    (last : dataSet.address = session.added.length) :
    (session.added ++ [dataSet]).map SubqueryDataSet.address =
      List.range (session.added ++ [dataSet]).length := by
  rw [map_append, kept.numbered, map_singleton, last, length_append, length_singleton, range_succ]

lemma Kept.older_concat (dataSet : SubqueryDataSet Properties)
    (known : ∀ address, dataSet.parent = some address -> address < dataSet.address) :
    ParentsOlder (session.added ++ [dataSet]) := by
  intro other member
  rcases mem_append.mp member with before | last
  · exact kept.older other before
  · rw [mem_singleton.mp last]
    exact known

lemma Kept.addStray (knows : session.Knows output) (cleared : output.1 ∈ session.cleared.map some)
    (content : DataSetContent Properties) : Kept (session.addDataSet output content) := by
  rw [addDataSet_of_cleared cleared]
  have strays : session.strayed ++
      [(⟨session.added.length, output.2, output.1, content⟩ : SubqueryDataSet Properties)] ≠ [] :=
    append_ne_nil_of_right_ne_nil _ (cons_ne_nil _ _)
  constructor
  case numbered => exact kept.numbered_concat _ rfl
  case older => exact kept.older_concat _ knows
  case held => exact kept.held.trans (sublist_append_left _ _)
  case known =>
    intro address bounded
    rw [length_append, length_singleton] at bounded
    by_cases last : address = session.added.length
    · exact .inl (mem_append_right _ (mem_singleton.mpr last))
    · rcases kept.known address (by omega) with before | found
      · exact .inl (mem_append_left _ before)
      · exact .inr found
  case tree => exact kept.tree
  case forgotten =>
    intro address isCleared
    rcases mem_append.mp isCleared with before | last
    · rcases kept.forgotten address before with ⟨stray, member, same⟩ | sent
      · exact .inl ⟨stray, mem_append_left _ member, same⟩
      · exact .inr sent
    · exact .inl ⟨_, mem_append_right _ (mem_singleton_self _), (mem_singleton.mp last).symm⟩
  case flushed =>
    intro flush member
    have flushed := kept.flushed flush member
    constructor
    case tree => exact flushed.tree
    case part => exact fun dataSet isPart => mem_append_left _ (flushed.part dataSet isPart)
    case early => exact flushed.early.trans (by simp)
    case owner => exact fun _ _ => .inr (.inl strays)
    case twice => exact flushed.twice
    case gone => exact fun dataSet isPart clears =>
      mem_append_left _ (flushed.gone dataSet isPart clears)
    case lost => exact fun _ _ _ _ _ _ _ => strays
  case even =>
    intro harmless
    have before : Harmless session :=
      harmless.before (fun _ member => member) fun _ member => mem_append_left _ member
    rcases mem_map.mp cleared with ⟨address, isCleared, lies⟩
    exfalso
    rcases kept.forgotten address isCleared with ⟨stray, isStray, _⟩ | ⟨flush, member, sent⟩
    · rw [(kept.even before).1] at isStray
      cases isStray
    · rcases sent with ⟨dataSet, isSent, same⟩
      apply (harmless flush member).finished ⟨session.added.length, output.2, output.1, content⟩
        (mem_append_right _ (mem_singleton_self _)) (kept.flushed flush member).early
        dataSet isSent
      rw [same]
      exact lies.symm

/-- A data set that goes into the result.  If a flush has just happened, it was for the same
output. -/
lemma Kept.addThere (knows : session.Knows output) (there : output.1 ∉ session.cleared.map some)
    (content : DataSetContent Properties)
    (pending : ∀ flush ∈ session.flushes, flush.address = session.added.length ->
      flush.output.1 = output.1) : Kept (session.addDataSet output content) := by
  rw [addDataSet_of_there there]
  constructor
  case numbered => exact kept.numbered_concat _ rfl
  case older => exact kept.older_concat _ knows
  case held => exact kept.held.append (Sublist.refl _)
  case known =>
    intro address bounded
    rw [length_append, length_singleton] at bounded
    by_cases last : address = session.added.length
    · exact .inr ⟨_, mem_append_right _ (mem_singleton_self _), last.symm⟩
    · rcases kept.known address (by omega) with cleared | ⟨dataSet, member, same⟩
      · exact .inl cleared
      · exact .inr ⟨dataSet, mem_append_left _ member, same⟩
  case tree =>
    intro dataSet member address lies
    rcases mem_append.mp member with before | last
    · rcases kept.tree dataSet before address lies with ⟨parent, isParent, same⟩
      exact ⟨parent, mem_append_left _ isParent, same⟩
    · rw [mem_singleton.mp last] at lies
      rcases kept.known address (knows address lies) with cleared | ⟨parent, isParent, same⟩
      · exact absurd (mem_map.mpr ⟨address, cleared, lies.symm⟩) there
      · exact ⟨parent, mem_append_left _ isParent, same⟩
  case forgotten => exact kept.forgotten
  case flushed =>
    intro flush member
    have flushed := kept.flushed flush member
    constructor
    case tree => exact flushed.tree
    case part => exact fun dataSet isPart => mem_append_left _ (flushed.part dataSet isPart)
    case early => exact flushed.early.trans (by simp)
    case owner =>
      intro address owned
      rcases flushed.owner address owned with found | strays | ⟨last, cleared⟩
      · exact .inl found
      · exact .inr (.inl strays)
      · have same := pending flush member last
        exact absurd (mem_map.mpr ⟨address, cleared, by rw [<- same, owned]⟩) there
    case twice =>
      intro dataSet isPart stays
      have before := flushed.twice dataSet isPart stays
      simp only [Session.deliveredDataSets, Session.deliveredResults, Session.delivered,
        flatMap_append, flatMap_singleton, map_append, count_append]
        at before ⊢
      omega
    case gone => exact flushed.gone
    case lost =>
      intro later isLater after dataSet isPart clears lies
      rcases mem_append.mp isLater with before | last
      · exact flushed.lost later before after dataSet isPart clears lies
      · rw [mem_singleton.mp last] at lies
        exact absurd (mem_map.mpr ⟨_, flushed.gone dataSet isPart clears, lies.symm⟩) there
  case even =>
    intro harmless
    have before : Harmless session :=
      harmless.before (fun _ member => member) fun _ member => mem_append_left _ member
    rcases kept.even before with ⟨noStray, delivered⟩
    refine ⟨noStray, ?_⟩
    simp only [Session.deliveredDataSets, Session.deliveredResults, Session.delivered,
      flatMap_append, flatMap_singleton] at delivered ⊢
    rw [<- append_assoc, delivered]

lemma Kept.addDataSet (knows : session.Knows output) (content : DataSetContent Properties)
    (pending : ∀ flush ∈ session.flushes, flush.address = session.added.length ->
      flush.output.1 = output.1) : Kept (session.addDataSet output content) := by
  by_cases cleared : output.1 ∈ session.cleared.map some
  · exact kept.addStray knows cleared content
  · exact kept.addThere knows cleared content pending

end

end

/-- What is delivered over a whole run is the result of a run without a callback, with every data
set in its own parent. -/
structure DeliversOnce (whole streaming : Session Object Properties) : Prop where
  once : streaming.deliveredDataSets.Perm whole.result.dataSets
  inside : ∀ result ∈ streaming.deliveredResults, IsTree result.dataSets
  alive : streaming.strayed = []

/-- No flush is still waiting for its data set. -/
def FlushesDone : Prop :=
  ∀ flush ∈ session.flushes, flush.address < session.added.length

lemma Kept.delivered_isTree {session : Session Object Properties} (kept : Kept session) :
    ∀ result ∈ session.deliveredResults, IsTree result.dataSets := by
  intro result member
  rcases mem_append.mp member with sent | last
  · rcases mem_map.mp sent with ⟨flush, isFlush, same⟩
    rw [<- same]
    exact (kept.flushed flush isFlush).tree
  · rw [mem_singleton.mp last]
    exact kept.tree

lemma deliversOnce_iff_harmless {whole streaming : Session Object Properties}
    (kept : Kept streaming) (settled : FlushesDone streaming)
    (all : whole.result.dataSets = streaming.added) :
    DeliversOnce whole streaming ↔ Harmless streaming := by
  constructor
  · intro delivers flush member
    have flushed := kept.flushed flush member
    have clears : ∀ dataSet ∈ flush.result.dataSets, flush.Clears dataSet := by
      intro dataSet isPart
      by_contra stays
      have twice := flushed.twice dataSet isPart stays
      have same := (all ▸ delivers.once).map SubqueryDataSet.address
      rw [kept.numbered] at same
      have once := nodup_iff_count_le_one.mp (same.nodup_iff.mpr nodup_range) dataSet.address
      omega
    constructor
    · cases owned : flush.output.1 with
      | none => rfl
      | some address =>
        rcases flushed.owner address owned with ⟨dataSet, isPart, same⟩ | strays | ⟨last, _⟩
        · have older : ParentsOlder flush.result.dataSets := kept.older.mono flushed.part
          have younger := lt_of_mem_addressesIn older owned (clears dataSet isPart)
          omega
        · exact absurd delivers.alive strays
        · exact absurd last (Nat.ne_of_lt (settled flush member))
    · exact clears
    · intro later isLater after dataSet isPart lies
      exact flushed.lost later isLater after dataSet isPart (clears dataSet isPart) lies
        delivers.alive
  · intro harmless
    rcases kept.even harmless with ⟨noStray, delivered⟩
    exact ⟨by rw [delivered, all], kept.delivered_isTree, noStray⟩

end Ecclesia.StepPlanner
