import Ecclesia.Smbios.Reader

namespace Ecclesia.Smbios

open List

/-!
# The reader is exact and stays in bounds

The search for the end of a structure and the loop over its strings scan the same bytes.  The
strings end where two zero bytes follow each other at the latest, so no access is behind the
end that the search has found.
-/

/-- An entry is copied from a piece: the formatted area, and strings with a zero behind each. -/
def CopiedFrom (entry : TableEntry) (piece : List UInt8) : Prop :=
  ∃ after, piece = entry.data ++ terminated 0 entry.strings ++ after

section

variable {view : SmbiosStructureView} {table : List UInt8}

/-- The search finds the first two zero bytes in a row. -/
lemma searchEnd_eq (table : List UInt8) (startAddress : Nat) : ∀ left index : Nat,
    left = (table.drop (startAddress + index)).length - 1 ->
    searchEnd table startAddress left index =
      .ok ((twoMarksAt 0 (table.drop (startAddress + index))).map fun position =>
        index + (position + 2)) := by
  intro left
  induction left with
  | zero =>
    intro index none_
    cases here : table.drop (startAddress + index) with
    | nil => rfl
    | cons first rest =>
      cases rest with
      | nil => rfl
      | cons second rest =>
        rw [here, length_cons, length_cons] at none_
        omega
  | succ left ih =>
    intro index some_
    cases here : table.drop (startAddress + index) with
    | nil =>
      rw [here] at some_
      cases some_
    | cons first rest =>
      cases rest with
      | nil =>
        rw [here] at some_
        cases some_
      | cons second rest =>
        have next : table.drop (startAddress + index + 1) = second :: rest :=
          drop_append [first] here
        have later := ih (index + 1) (by
          rw [<- Nat.add_assoc, next]
          rw [here, length_cons] at some_
          omega)
        rw [<- Nat.add_assoc, next] at later
        rw [searchEnd, readByte_drop here]
        rw [readByte_drop next]
        change (if first ||| second = 0 then Except.ok (some (index + 2))
          else searchEnd table startAddress left (index + 1)) = _
        rw [twoMarksAt, later]
        by_cases bothZero : first = 0 ∧ second = 0
        · rw [if_pos (UInt8.or_eq_zero_iff.mpr bothZero), if_pos bothZero]
          rfl
        · rw [if_neg fun same => bothZero (UInt8.or_eq_zero_iff.mp same), if_neg bothZero,
            Option.map_map]
          apply congrArg (fun moved => Except.ok ((twoMarksAt 0 (second :: rest)).map moved))
          funext position
          change index + 1 + (position + 2) = index + (position + 1 + 2)
          omega

def formattedSize (view : SmbiosStructureView) (table : List UInt8) (startAddress : Nat) : Nat :=
  view.sizeInBytes (table.drop startAddress)

lemma extractSmbiosStructure_eq (startAddress : Nat) :
    extractSmbiosStructure view table startAddress (table.length - startAddress) =
      .ok (if view.ok (table.drop startAddress) then
        (twoMarksAt 0 (table.drop (startAddress + formattedSize view table startAddress))).map
          fun position => ⟨startAddress, startAddress + formattedSize view table startAddress,
            formattedSize view table startAddress + (position + 2)⟩
        else none) := by
  have whole : (table.drop startAddress).take (table.length - startAddress) =
      table.drop startAddress := by
    apply take_of_length_le
    exact Nat.le_of_eq length_drop
  rw [extractSmbiosStructure]
  rw [whole]
  cases isOk : view.ok (table.drop startAddress) with
  | false => rfl
  | true =>
    have search := searchEnd_eq table startAddress
      (table.length - startAddress - 1 - formattedSize view table startAddress)
      (formattedSize view table startAddress) (by
        rw [length_drop]
        omega)
    change (searchEnd table startAddress
      (table.length - startAddress - 1 - formattedSize view table startAddress)
      (formattedSize view table startAddress)).bind _ = _
    rw [search]
    change Except.ok (Option.map _ (Option.map _ _)) = _
    rw [Option.map_map]
    rfl

variable {startAddress : Nat} {items : List (List UInt8)}

lemma tableEntry_eq {size structureSize : Nat} (inside : startAddress + size <= table.length)
    (lists : Lists 0 items (table.drop (startAddress + size))) :
    tableEntry table ⟨startAddress, startAddress + size, structureSize⟩ =
      .ok ⟨(table.drop startAddress).take size, items⟩ := by
  have length : ((table.drop startAddress).take size).length = size := by
    rw [length_take, length_drop]
    omega
  have data := mapM_readByte ((table.drop startAddress).take size)
    (take_append_drop size (table.drop startAddress)).symm
  rw [length] at data
  rw [tableEntry]
  rw [Nat.add_sub_cancel_left, data]
  rw [readStrings_lists lists rfl (by omega)]
  rfl

variable {entries : List TableEntry}

lemma buildEntriesFrom_inside {fuel : Nat} (inside : startAddress < table.length) :
    buildEntriesFrom view table (fuel + 1) startAddress entries =
      (extractSmbiosStructure view table startAddress (table.length - startAddress)).bind
        fun found => match found with
          | none => .ok entries
          | some info => (tableEntry table info).bind fun entry =>
            buildEntriesFrom view table fuel (startAddress + info.structureSize)
              (entries ++ [entry]) := by
  have notBehind : startAddress <= table.length - 1 := by omega
  have length : table.length - 1 - startAddress + 1 = table.length - startAddress := by omega
  rw [buildEntriesFrom]
  rw [if_pos notBehind, length]
  rfl

lemma buildEntriesFrom_behind {fuel : Nat} (present : table ≠ [])
    (behind : table.length <= startAddress) :
    buildEntriesFrom view table (fuel + 1) startAddress entries = .ok entries := by
  have notInside : ¬ startAddress <= table.length - 1 := by
    have := length_pos_iff.mpr present
    omega
  rw [buildEntriesFrom]
  rw [if_neg notInside]
  rfl

/-- A structure that is found lies within the table, and one turn of the loop copies it. -/
lemma buildEntriesFrom_found (lawful : view.Lawful) {fuel position : Nat}
    (inside : startAddress < table.length) (isOk : view.ok (table.drop startAddress) = true)
    (found : twoMarksAt 0 (table.drop (startAddress + formattedSize view table startAddress)) =
      some position)
    (lists : Lists 0 items (table.drop (startAddress + formattedSize view table startAddress))) :
    buildEntriesFrom view table (fuel + 1) startAddress entries =
      buildEntriesFrom view table fuel
        (startAddress + (formattedSize view table startAddress + (position + 2)))
        (entries ++
          [⟨(table.drop startAddress).take (formattedSize view table startAddress), items⟩]) := by
  have bound := (lawful _ isOk).2
  rw [length_drop] at bound
  rw [buildEntriesFrom_inside inside, extractSmbiosStructure_eq, if_pos isOk, found]
  change (tableEntry table ⟨startAddress, startAddress + formattedSize view table startAddress,
    formattedSize view table startAddress + (position + 2)⟩).bind _ = _
  rw [tableEntry_eq (by unfold formattedSize; omega) lists]
  rfl

/-- What one turn copies is the beginning of a piece, which ends where the structure ends. -/
lemma copiedFrom_piece {bytes : List UInt8} {size position : Nat}
    (lists : Lists 0 items (bytes.drop size)) (short : (terminated 0 items).length <= position + 1) :
    CopiedFrom ⟨bytes.take size, items⟩ (bytes.take (size + (position + 2))) := by
  rcases lists.whole with ⟨rest, whole⟩
  have length : (terminated 0 items).length <= position + 2 := by omega
  refine ⟨((0 : UInt8) :: rest).take (position + 2 - (terminated 0 items).length), ?_⟩
  rw [take_add, whole, take_append, take_of_length_le length, append_assoc]

lemma buildEntriesFrom_pieces (lawful : view.Lawful) (present : table ≠ []) (fuel : Nat) :
    ∀ (startAddress : Nat) (entries : List TableEntry),
      startAddress <= table.length -> table.length < startAddress + fuel ->
      ∃ added pieces left,
        buildEntriesFrom view table fuel startAddress entries = .ok (entries ++ added) ∧
        table.drop startAddress = pieces.flatten ++ left ∧ Forall₂ CopiedFrom added pieces := by
  induction fuel with
  | zero =>
    intro startAddress entries inside enough
    omega
  | succ fuel ih =>
    intro startAddress entries inside enough
    by_cases isBehind : table.length <= startAddress
    · refine ⟨[], [], table.drop startAddress, ?_, rfl, .nil⟩
      rw [append_nil]
      exact buildEntriesFrom_behind present isBehind
    · have isInside : startAddress < table.length := by omega
      have stops : (if view.ok (table.drop startAddress) then
          (twoMarksAt 0 (table.drop (startAddress + formattedSize view table startAddress))).map
            fun position => (⟨startAddress, startAddress + formattedSize view table startAddress,
              formattedSize view table startAddress + (position + 2)⟩ : SmbiosStructureInfo)
          else none) = none ->
          buildEntriesFrom view table (fuel + 1) startAddress entries = .ok (entries ++ []) := by
        intro nothing
        rw [buildEntriesFrom_inside isInside, extractSmbiosStructure_eq, nothing, append_nil]
        rfl
      cases isOk : view.ok (table.drop startAddress) with
      | false =>
        exact ⟨[], [], _, stops (by rw [isOk]; rfl), rfl, .nil⟩
      | true =>
        cases found : twoMarksAt 0
            (table.drop (startAddress + formattedSize view table startAddress)) with
        | none =>
          exact ⟨[], [], _, stops (by rw [found]; exact ite_self none), rfl, .nil⟩
        | some position =>
          rcases lists_of_twoMarksAt _ position found with ⟨items, lists, short⟩
          have bound := (lawful _ isOk).2
          have behind := twoMarksAt_lt found
          rw [length_drop] at bound behind
          rcases ih (startAddress + (formattedSize view table startAddress + (position + 2)))
            (entries ++
              [⟨(table.drop startAddress).take (formattedSize view table startAddress), items⟩])
            (by omega) (by omega) with ⟨added, pieces, left, ended, whole, copied⟩
          refine ⟨(⟨(table.drop startAddress).take (formattedSize view table startAddress),
            items⟩ : TableEntry) :: added, (table.drop startAddress).take
            (formattedSize view table startAddress + (position + 2)) :: pieces, left, ?_, ?_,
            .cons ?_ copied⟩
          · rw [buildEntriesFrom_found lawful isInside isOk found lists, ended,
              append_assoc]
            rfl
          · rw [flatten_cons, append_assoc, <- whole, <- drop_drop, take_append_drop]
          · rw [<- drop_drop] at lists
            exact copiedFrom_piece lists short

end

/-- A formatted area that tells its own length, and strings that are neither empty nor contain
a zero. -/
structure Structure where
  formatted : List UInt8
  strings : List (List UInt8)
  long : 4 <= formatted.length
  tells : (formatted.getD 1 0).toNat = formatted.length
  plain : ∀ string ∈ strings, string ≠ [] ∧ 0 ∉ string

namespace Structure

/-- The bytes behind the formatted area. -/
def unformed (item : Structure) : List UInt8 :=
  match item.strings with
  | [] => [0, 0]
  | _ => terminated 0 item.strings ++ [0]

def bytes (item : Structure) : List UInt8 :=
  item.formatted ++ item.unformed

def entry (item : Structure) : TableEntry :=
  ⟨item.formatted, item.strings⟩

/-- The strings are listed behind the formatted area, and the search finds its end. -/
lemma unformed_found (item : Structure) (rest : List UInt8) :
    Lists 0 item.strings (item.unformed ++ rest) ∧
      ∃ position, twoMarksAt 0 (item.unformed ++ rest) = some position ∧
        position + 2 = item.unformed.length := by
  rw [unformed]
  cases isList : item.strings with
  | nil => exact ⟨.done (0 :: rest), 0, rfl, rfl⟩
  | cons string strings =>
    have plain := item.plain
    rw [isList] at plain
    rw [append_assoc]
    rcases twoMarksAt_terminated (cons_ne_nil _ _) plain rest with ⟨position, found, last⟩
    refine ⟨lists_terminated plain rest, position, found, ?_⟩
    rw [length_append, <- last]
    rfl

end Structure

def tableBytes (structures : List Structure) : List UInt8 :=
  structures.flatMap Structure.bytes

variable {view : SmbiosStructureView}

/-- What the loop makes of the structures that are left. -/
lemma buildEntriesFrom_structures (lawful : view.Lawful) {table : List UInt8}
    (present : table ≠ []) (structures : List Structure) :
    ∀ (fuel startAddress : Nat) (entries : List TableEntry),
      table.drop startAddress = tableBytes structures ->
      (∀ before item after, structures = before ++ item :: after ->
        view.ok (tableBytes (item :: after)) = true) ->
      startAddress <= table.length -> table.length < startAddress + fuel ->
      buildEntriesFrom view table fuel startAddress entries =
        .ok (entries ++ structures.map Structure.entry) := by
  induction structures with
  | nil =>
    intro fuel startAddress entries here _ inside enough
    have behind : table.length <= startAddress := drop_eq_nil_iff.mp here
    cases fuel with
    | zero => omega
    | succ fuel =>
      rw [buildEntriesFrom_behind present behind]
      exact congrArg Except.ok (append_nil entries).symm
  | cons item structures ih =>
    intro fuel startAddress entries here allOk inside enough
    have split : table.drop startAddress =
        item.formatted ++ (item.unformed ++ tableBytes structures) := by
      rw [here, tableBytes, flatMap_cons, Structure.bytes, append_assoc]
      rfl
    have isOk : view.ok (table.drop startAddress) = true := by
      rw [here]
      exact allOk [] item structures rfl
    have size : formattedSize view table startAddress = item.formatted.length := by
      have second : (table.drop startAddress).getD 1 0 = item.formatted.getD 1 0 := by
        have long := item.long
        rw [split, getD_eq_getElem?_getD, getD_eq_getElem?_getD, getElem?_append_left (by omega)]
      rw [formattedSize, (lawful _ isOk).1, second, item.tells]
      exact Nat.max_eq_right item.long
    have behind : table.drop (startAddress + formattedSize view table startAddress) =
        item.unformed ++ tableBytes structures := by
      rw [size]
      exact drop_append item.formatted split
    rcases item.unformed_found (tableBytes structures) with ⟨lists, position, found, last⟩
    have isInside : startAddress < table.length := by
      have long := item.long
      have length := congrArg List.length split
      rw [length_drop, length_append] at length
      omega
    have next : table.drop (startAddress + (item.formatted.length + item.unformed.length)) =
        tableBytes structures := by
      rw [<- Nat.add_assoc, <- size]
      exact drop_append item.unformed behind
    have length := congrArg List.length split
    rw [length_drop, length_append, length_append] at length
    cases fuel with
    | zero => omega
    | succ fuel =>
      have formatted : (table.drop startAddress).take item.formatted.length = item.formatted := by
        rw [split, take_left]
      rw [<- behind] at found lists
      rw [buildEntriesFrom_found lawful isInside isOk found lists, size, formatted, last,
        ih fuel _ _ next (fun before other after same =>
          allOk (item :: before) other after (congrArg (List.cons item) same))
          (by omega) (by omega), append_assoc]
      rfl

/-- The reader ends within bounds, its entries are copied from consecutive pieces, and it returns
just the structures of a well-formed table. -/
theorem buildEntries_exact (lawful : view.Lawful) :
    (∀ table, ∃ entries pieces left,
      buildEntries view table = .ok entries ∧ table = pieces.flatten ++ left ∧
        List.Forall₂ CopiedFrom entries pieces) ∧
    ∀ structures : List Structure,
      (∀ before item after, structures = before ++ item :: after ->
        view.ok (tableBytes (item :: after)) = true) ->
      buildEntries view (tableBytes structures) = .ok (structures.map Structure.entry) := by
  constructor
  · intro table
    cases table with
    | nil => exact ⟨[], [], [], rfl, rfl, .nil⟩
    | cons byte table =>
      exact buildEntriesFrom_pieces lawful (List.cons_ne_nil _ _) _ 0 [] (Nat.zero_le _) (by omega)
  · intro structures allOk
    cases structures with
    | nil => rfl
    | cons item structures =>
      have present : tableBytes (item :: structures) ≠ [] := by
        have long := item.long
        intro none_
        have length := congrArg List.length none_
        rw [tableBytes, List.flatMap_cons, List.length_append, Structure.bytes,
          List.length_append, List.length_nil] at length
        omega
      have notEmpty : (tableBytes (item :: structures)).isEmpty = false :=
        List.isEmpty_eq_false_iff.mpr present
      rw [buildEntries, notEmpty]
      exact buildEntriesFrom_structures lawful present (item :: structures) _ 0 [] rfl allOk
        (Nat.zero_le _) (by omega)

/-- The view of structures without fields of their own. -/
def headerView : SmbiosStructureView where
  ok bytes := decide (max 4 (bytes.getD 1 0).toNat <= bytes.length)
  sizeInBytes bytes := max 4 (bytes.getD 1 0).toNat

def strings : Structure where
  formatted := [11, 5, 1, 0, 2]
  strings := [[65, 66], [67]]
  long := by decide
  tells := by decide
  plain := by decide

def endOfTable : Structure where
  formatted := [127, 4, 2, 0]
  strings := []
  long := by decide
  tells := by decide
  plain := by decide

/-- A table of two structures, the second of them without strings. -/
theorem buildEntries_exact_two :
    buildEntries headerView
        [11, 5, 1, 0, 2, 65, 66, 0, 67, 0, 0, 127, 4, 2, 0, 0, 0] =
      .ok [⟨[11, 5, 1, 0, 2], [[65, 66], [67]]⟩, ⟨[127, 4, 2, 0], []⟩] := by
  have lawful : headerView.Lawful := fun bytes isOk => ⟨rfl, of_decide_eq_true isOk⟩
  apply (buildEntries_exact lawful).2 [strings, endOfTable]
  intro before item after same
  cases before with
  | nil =>
    cases same
    decide
  | cons first before =>
    cases before with
    | nil =>
      cases same
      decide
    | cons second before =>
      have length := congrArg List.length same
      simp only [List.length_cons, List.length_nil, List.length_append] at length
      omega

end Ecclesia.Smbios
