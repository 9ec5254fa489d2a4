import Ecclesia.Verification.Clean
import Ecclesia.Verification.Recorded

namespace Ecclesia.Verification

open Absl List

/-!
# The rounds of a list comparison

The loop over the items of two lists records what is missing on one side, and compares the
items that are on both sides as long as nothing has been missing.  A comparison that comes
behind errors may record less than it does alone.
-/

def errorAt (context : VerificationContext) (message : Text) : ErrorInfo :=
  ⟨message, context.path, if context.uri.isEmpty then none else some context.uri⟩

def missingMessages (key : Text) (useIndex : Bool) (label : Text) (item : Option QueryValue) :
    List Text :=
  if item.isSome then []
  else [text "Missing value in '" ++ label ++ text "' with identifier " ++
    if useIndex then text "index=" ++ key else key]

lemma run_checkListItem (key : Text) (useIndex : Bool) (label : Text)
    (context : VerificationContext) (item : Option QueryValue) (messages : List Text)
    (before : List ErrorInfo) :
    (checkListItem key useIndex label context item messages).run before =
      (.ok (messages ++ missingMessages key useIndex label item),
        before ++ (missingMessages key useIndex label item).map (errorAt context)) := by
  cases item with
  | none => rfl
  | some value =>
    change (Except.ok messages, before) = (.ok (messages ++ []), before ++ [])
    rw [append_nil, append_nil]

variable (texts : ValueTexts) (options : VerificationOptions) (comparison : ListComparison)
  (useIndex : Bool) (context : VerificationContext)

def entryMessages (entry : Text × ItemPair) : List Text :=
  missingMessages entry.1 useIndex options.labelA entry.2.first ++
    missingMessages entry.1 useIndex options.labelB entry.2.second

/-- The comparison of the items with a key, if they are on both sides. -/
def itemCheck (key : Text) (pair : ItemPair) : Check Unit :=
  match pair.first, pair.second with
  | some itemA, some itemB =>
    comparison.data (subqueryValue itemA) (subqueryValue itemB) (itemContext useIndex context key)
  | _, _ => pure ()

/-- The items of an entry are data sets. -/
def SubqueryItems (pair : ItemPair) : Prop :=
  ∀ item, pair.first = some item -> ∃ fields, item = .subquery fields

variable {entry : Text × ItemPair}

lemma entryMessages_eq_nil : entryMessages options useIndex entry = [] ↔
      entry.2.first.isSome = true ∧ entry.2.second.isSome = true := by
  simp only [entryMessages, missingMessages, append_eq_nil_iff, ite_eq_left_iff,
    cons_ne_nil, imp_false, not_not]

lemma run_compareItems (fields : QueryResultData) (itemB : QueryValue) (status : Option Status)
    (before : List ErrorInfo) : ∃ later,
    (compareItems texts options comparison (.subquery fields) itemB context ⟨[], status⟩).run before =
      (.ok ⟨[], later⟩, ((comparison.data fields (subqueryValue itemB) context).run before).2) := by
  change ∃ later, ((comparison.data fields (subqueryValue itemB) context).attempt >>=
    fun failure => pure (ListState.mk [] (failure.or status))).run before = _
  simp only [Report.run_bind, Report.attempt]
  rcases (comparison.data fields (subqueryValue itemB) context).run before with
    ⟨failure | value, more⟩
  · exact ⟨some failure, rfl⟩
  · exact ⟨status, rfl⟩

lemma run_compareEntry (entry : Text × ItemPair) (subqueries : SubqueryItems entry.2)
    (messages : List Text) (status : Option Status) (before : List ErrorInfo) : ∃ later,
    (compareEntry texts options comparison useIndex context ⟨messages, status⟩ entry).run before =
      (.ok ⟨messages ++ entryMessages options useIndex entry, later⟩,
        if messages ++ entryMessages options useIndex entry = [] then
          ((itemCheck comparison useIndex context entry.1 entry.2).run before).2
        else before ++ (entryMessages options useIndex entry).map (errorAt context)) := by
  rcases entry with ⟨key, ⟨first, second⟩⟩
  rw [compareEntry, Report.run_bind_ok (run_checkListItem _ _ _ _ _ _ _),
    Report.run_bind_ok (run_checkListItem _ _ _ _ _ _ _), append_assoc messages,
    append_assoc before, <- map_append]
  by_cases nothing : messages ++ entryMessages options useIndex (key, ⟨first, second⟩) = []
  · rcases append_eq_nil_iff.mp nothing with ⟨rfl, present⟩
    rcases (entryMessages_eq_nil options useIndex).mp present with ⟨presentA, presentB⟩
    rcases Option.isSome_iff_exists.mp presentA with ⟨itemA, rfl⟩
    rcases Option.isSome_iff_exists.mp presentB with ⟨itemB, rfl⟩
    rcases subqueries itemA rfl with ⟨fields, rfl⟩
    rcases run_compareItems texts options comparison (itemContext useIndex context key) fields itemB
      status before with ⟨later, ran⟩
    refine ⟨later, ?_⟩
    change (compareItems texts options comparison (.subquery fields) itemB
      (itemContext useIndex context key) ⟨[], status⟩).run (before ++ []) = _
    rw [append_nil]
    exact ran
  · refine ⟨status, ?_⟩
    rw [if_neg nothing]
    split
    · exact absurd ‹_› nothing
    · rfl

/-- The errors after the loop, from a state and errors that are there before. -/
def loopErrors (messages : List Text) (status : Option Status) (before : List ErrorInfo)
    (entries : List (Text × ItemPair)) : List ErrorInfo :=
  ((entries.foldlM (compareEntry texts options comparison useIndex context)
    ⟨messages, status⟩).run before).2

def entryErrors (entry : Text × ItemPair) (before : List ErrorInfo) : List ErrorInfo :=
  ((itemCheck comparison useIndex context entry.1 entry.2).run before).2

lemma loopErrors_cons (subqueries : SubqueryItems entry.2) (messages : List Text)
    (status : Option Status) (before : List ErrorInfo) (rest : List (Text × ItemPair)) : ∃ later,
    loopErrors texts options comparison useIndex context messages status before (entry :: rest) =
      loopErrors texts options comparison useIndex context
        (messages ++ entryMessages options useIndex entry) later
        (if messages ++ entryMessages options useIndex entry = [] then
          entryErrors comparison useIndex context entry before
        else before ++ (entryMessages options useIndex entry).map (errorAt context)) rest := by
  rcases run_compareEntry texts options comparison useIndex context entry subqueries messages status
    before with ⟨later, ran⟩
  refine ⟨later, ?_⟩
  rw [loopErrors, foldlM_cons, Report.run_bind_ok ran]
  rfl

/-- The items of all entries are data sets, and none is missing on either side. -/
def Paired (entries : List (Text × ItemPair)) : Prop :=
  ∀ entry ∈ entries, SubqueryItems entry.2 ∧ entryMessages options useIndex entry = []

lemma Paired.tail {entry : Text × ItemPair} {rest : List (Text × ItemPair)}
    (paired : Paired options useIndex (entry :: rest)) : Paired options useIndex rest :=
  fun other member => paired other (mem_cons_of_mem entry member)

variable {rest : List (Text × ItemPair)}

/-- Items that are on both sides are compared. -/
lemma Paired.loopErrors_cons (paired : Paired options useIndex (entry :: rest))
    (status : Option Status) (before : List ErrorInfo) : ∃ later,
    loopErrors texts options comparison useIndex context [] status before (entry :: rest) =
      loopErrors texts options comparison useIndex context [] later
        (entryErrors comparison useIndex context entry before) rest := by
  rcases paired entry (.head _) with ⟨subqueries, present⟩
  rcases Verification.loopErrors_cons texts options comparison useIndex context subqueries [] status
    before rest with ⟨later, unfolded⟩
  rw [present] at unfolded
  exact ⟨later, unfolded⟩

variable (recorded : ∀ valueA valueB context,
  Recorded context (comparison.data valueA valueB context))

include recorded

lemma recorded_itemCheck (key : Text) (pair : ItemPair) :
    Recorded (itemContext useIndex context key) (itemCheck comparison useIndex context key pair) := by
  unfold itemCheck
  split
  · exact recorded _ _ _
  · exact recorded_pure ()

lemma loopErrors_silent (entries : List (Text × ItemPair)) :
    (∀ entry ∈ entries, SubqueryItems entry.2) ->
    ∀ (messages : List Text) (status : Option Status) (before : List ErrorInfo),
      messages ≠ [] ∨ (∀ entry ∈ entries, entryErrors comparison useIndex context entry [] = []) ->
      loopErrors texts options comparison useIndex context messages status before entries =
        before ++ (entries.flatMap (entryMessages options useIndex)).map (errorAt context) := by
  induction entries with
  | nil => exact fun _ _ _ before _ => (append_nil before).symm
  | cons entry rest ih =>
    intro subqueries messages status before silent
    have here := subqueries entry (.head _)
    have later := ih fun other member => subqueries other (mem_cons_of_mem entry member)
    rcases loopErrors_cons texts options comparison useIndex context here messages status before
      rest with ⟨newStatus, unfolded⟩
    have silentLater : messages ++ entryMessages options useIndex entry ≠ [] ∨
        (∀ other ∈ rest, entryErrors comparison useIndex context other [] = []) := by
      rcases silent with missing | same
      · exact .inl (append_ne_nil_of_left_ne_nil missing _)
      · exact .inr fun other member => same other (mem_cons_of_mem entry member)
    rw [unfolded, later _ _ _ silentLater, flatMap_cons, map_append, <- append_assoc]
    congr 1
    split
    · rename_i nothing
      rcases append_eq_nil_iff.mp nothing with ⟨none, present⟩
      rcases silent with missing | same
      · exact absurd none missing
      · have steady := (recorded_itemCheck comparison useIndex context recorded entry.1
          entry.2).steady
        rw [present, map_nil, append_nil]
        exact steady.run_of_silent (same entry (.head _)) before
    · rfl

lemma mem_loopErrors_behind (entries : List (Text × ItemPair)) :
    Paired options useIndex entries ->
    ∀ (status : Option Status) (before : List ErrorInfo), before ≠ [] -> ∀ error,
      error ∈ loopErrors texts options comparison useIndex context [] status before entries ↔
        error ∈ before ∨ ∃ entry ∈ entries,
          error ∈ entryErrors comparison useIndex context entry before := by
  induction entries with
  | nil =>
    intro _ status before _ error
    refine ⟨.inl, ?_⟩
    rintro (member | ⟨entry, impossible, -⟩)
    · exact member
    · cases impossible
  | cons entry rest ih =>
    intro paired status before written error
    rcases paired.loopErrors_cons texts options comparison useIndex context status before with
      ⟨later, unfolded⟩
    rw [unfolded]
    have grows : before <+: entryErrors comparison useIndex context entry before :=
      (itemCheck comparison useIndex context entry.1 entry.2).grows before
    rcases grows with ⟨since, wrote⟩
    rw [<- wrote, ih (paired.tail options useIndex) later (before ++ since)
      (append_ne_nil_of_left_ne_nil written since)]
    have same : ∀ other : Text × ItemPair,
        error ∈ entryErrors comparison useIndex context other (before ++ since) ↔
          error ∈ since ∨ error ∈ entryErrors comparison useIndex context other before :=
      fun other => (recorded_itemCheck comparison useIndex context recorded other.1
        other.2).steady.mem_run_append written since error
    simp only [same, mem_append, mem_cons, exists_eq_or_imp, <- wrote]
    constructor
    · rintro ((member | member) | ⟨other, inside, member | member⟩)
      · exact .inl member
      · exact .inr (.inl (.inr member))
      · exact .inr (.inl (.inr member))
      · exact .inr (.inr ⟨other, inside, member⟩)
    · rintro (member | (member | member) | ⟨other, inside, member⟩)
      · exact .inl (.inl member)
      · exact .inl (.inl member)
      · exact .inl (.inr member)
      · exact .inr ⟨other, inside, .inr member⟩

lemma mem_loopErrors_first (paired : Paired options useIndex (entry :: rest))
    (differs : entryErrors comparison useIndex context entry [] ≠ []) (status : Option Status)
    (error : ErrorInfo) :
    error ∈ loopErrors texts options comparison useIndex context [] status [] (entry :: rest) ↔
      error ∈ entryErrors comparison useIndex context entry [] ∨ ∃ other ∈ rest,
        error ∈ entryErrors comparison useIndex context other
          (entryErrors comparison useIndex context entry []) := by
  rcases paired.loopErrors_cons texts options comparison useIndex context status [] with
    ⟨later, unfolded⟩
  rw [unfolded]
  exact mem_loopErrors_behind texts options comparison useIndex context recorded rest
    (paired.tail options useIndex) later _ differs error

variable {entries : List (Text × ItemPair)}

/-- All errors of items are recorded if this is so whichever items are the first that
differ. -/
lemma mem_loopErrors_of_mem : Paired options useIndex entries ->
    (∀ first ∈ entries, entryErrors comparison useIndex context first [] ≠ [] ->
      ∀ other error, other ∈ entries -> error ∈ entryErrors comparison useIndex context other [] ->
      ∃ third ∈ entries, error ∈ entryErrors comparison useIndex context third
        (entryErrors comparison useIndex context first [])) ->
    ∀ (status : Option Status) other error, other ∈ entries ->
      error ∈ entryErrors comparison useIndex context other [] ->
      error ∈ loopErrors texts options comparison useIndex context [] status [] entries := by
  induction entries with
  | nil =>
    intro _ _ _ other error impossible
    cases impossible
  | cons entry rest ih =>
    intro paired covered status other error inside member
    have steady := fun entry : Text × ItemPair =>
      (recorded_itemCheck comparison useIndex context recorded entry.1 entry.2).steady
    by_cases differs : entryErrors comparison useIndex context entry [] = []
    · rcases paired.loopErrors_cons texts options comparison useIndex context status [] with
        ⟨later, unfolded⟩
      rw [unfolded, differs]
      have insideRest : other ∈ rest := by
        rcases mem_cons.mp inside with rfl | inside
        · rw [differs] at member
          cases member
        · exact inside
      refine ih (paired.tail options useIndex) ?_ later other error insideRest member
      intro first isFirst firstDiffers other error inside member
      rcases covered first (mem_cons_of_mem entry isFirst) firstDiffers other error
        (mem_cons_of_mem entry inside) member with ⟨third, isThird, found⟩
      rcases mem_cons.mp isThird with rfl | isThird
      · -- What was found is an error of the first items, as these write nothing.
        rw [entryErrors, (steady third).run_of_silent differs] at found
        exact ⟨first, isFirst,
          ((itemCheck comparison useIndex context first.1 first.2).grows _).subset found⟩
      · exact ⟨third, isThird, found⟩
    · rw [mem_loopErrors_first texts options comparison useIndex context recorded paired differs]
      rcases covered entry (.head _) differs other error inside member with ⟨third, isThird, found⟩
      rcases mem_cons.mp isThird with rfl | isThird
      · rcases (steady third).mem_run_nil differs found with found | found
        · exact .inl found
        · exact .inl found
      · exact .inr ⟨third, isThird, found⟩

lemma mem_of_mem_loopErrors : Paired options useIndex entries ->
    ∀ (status : Option Status) error,
      error ∈ loopErrors texts options comparison useIndex context [] status [] entries ->
      ∃ entry ∈ entries, error ∈ entryErrors comparison useIndex context entry [] := by
  induction entries with
  | nil =>
    intro _ _ error impossible
    cases impossible
  | cons entry rest ih =>
    intro paired status error member
    by_cases differs : entryErrors comparison useIndex context entry [] = []
    · rcases paired.loopErrors_cons texts options comparison useIndex context status [] with
        ⟨later, unfolded⟩
      rw [unfolded, differs] at member
      rcases ih (paired.tail options useIndex) later error member with ⟨other, inside, found⟩
      exact ⟨other, mem_cons_of_mem entry inside, found⟩
    · rw [mem_loopErrors_first texts options comparison useIndex context recorded paired differs]
        at member
      rcases member with member | ⟨other, inside, member⟩
      · exact ⟨entry, .head _, member⟩
      · have steady := (recorded_itemCheck comparison useIndex context recorded other.1
          other.2).steady
        rcases steady.mem_run_nil differs member with member | member
        · exact ⟨entry, .head _, member⟩
        · exact ⟨other, mem_cons_of_mem entry inside, member⟩

lemma path_of_missing_first (subqueries : ∀ other ∈ entry :: rest, SubqueryItems other.2)
    (missing : entryMessages options useIndex entry ≠ []) (status : Option Status)
    {error : ErrorInfo}
    (member : error ∈ loopErrors texts options comparison useIndex context [] status []
      (entry :: rest)) : error.path = context.path := by
  rcases loopErrors_cons texts options comparison useIndex context
    (subqueries entry (.head _)) [] status [] rest with ⟨later, unfolded⟩
  rw [unfolded, nil_append, if_neg missing, loopErrors_silent texts options comparison useIndex
    context recorded rest (fun other member => subqueries other (mem_cons_of_mem entry member))
    _ _ _ (.inl missing), nil_append, <- map_append] at member
  rcases mem_map.mp member with ⟨message, -, rfl⟩
  rfl

end Ecclesia.Verification
