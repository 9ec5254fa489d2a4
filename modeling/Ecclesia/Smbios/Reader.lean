import Ecclesia.Library.Terminated

namespace Ecclesia.Smbios

open List

/-!
# Reading an SMBIOS table

A table is a sequence of structures.  Each has a formatted area, which tells its own length,
and a list of strings behind it that ends in two zero bytes.  The reader copies the areas and
the strings into entries.

The definitions follow `reader.cc` and `internal.h`.  A pointer into the table is the offset
of the byte that it points to, and every access is checked here, while the code checks none.
-/

/-- What the code must not run into. -/
inductive Fault where
  | outOfBounds
  | endless
deriving DecidableEq

/-- The view that is generated for `SmbiosStructure`, of some bytes. -/
structure SmbiosStructureView where
  ok : List UInt8 -> Bool
  sizeInBytes : List UInt8 -> Nat

/-- What the view guarantees.  The header has four bytes, and the second is the length. -/
def SmbiosStructureView.Lawful (view : SmbiosStructureView) : Prop :=
  ∀ bytes, view.ok bytes = true ->
    view.sizeInBytes bytes = max 4 (bytes.getD 1 0).toNat ∧ view.sizeInBytes bytes <= bytes.length

structure SmbiosStructureInfo where
  formattedDataStart : Nat
  unformedDataStart : Nat
  structureSize : Nat

structure TableEntry where
  data : List UInt8
  strings : List (List UInt8)
deriving DecidableEq

section

variable (view : SmbiosStructureView) (table : List UInt8)

def readByte (address : Nat) : Except Fault UInt8 :=
  match table[address]? with
  | some byte => .ok byte
  | none => .error .outOfBounds

/-- The loop of `ExtractSmbiosStructure`, which has some indices left, and the size that it
finds. -/
def searchEnd (startAddress : Nat) : Nat -> Nat -> Except Fault (Option Nat)
  | 0, _ => .ok none
  | left + 1, index => do
      let first <- readByte table (startAddress + index)
      let second <- readByte table (startAddress + index + 1)
      if first ||| second = 0 then return some (index + 2)
      else searchEnd startAddress left (index + 1)

def extractSmbiosStructure (startAddress maxLength : Nat) :
    Except Fault (Option SmbiosStructureInfo) := do
  let bytes := (table.drop startAddress).take maxLength
  if !view.ok bytes then return none
  let index := view.sizeInBytes bytes
  let found <- searchEnd table startAddress (maxLength - 1 - index) index
  return found.map fun structureSize => ⟨startAddress, startAddress + index, structureSize⟩

/-- `std::string` from a pointer to characters: everything up to a zero. -/
def readString : Nat -> Nat -> Except Fault (List UInt8)
  | 0, _ => .error .endless
  | fuel + 1, start => do
      let c <- readByte table start
      if c = 0 then return []
      let rest <- readString fuel (start + 1)
      return c :: rest

/-- The loop of the constructor of `TableEntry`. -/
def readStrings : Nat -> Nat -> Except Fault (List (List UInt8))
  | 0, _ => .error .endless
  | fuel + 1, start => do
      let c <- readByte table start
      if c = 0 then return []
      let string <- readString table (table.length + 1) start
      let rest <- readStrings fuel (start + string.length + 1)
      return string :: rest

/-- The constructor of `TableEntry`. -/
def tableEntry (info : SmbiosStructureInfo) : Except Fault TableEntry := do
  let data <- (List.range' info.formattedDataStart
    (info.unformedDataStart - info.formattedDataStart)).mapM (readByte table)
  let strings <- readStrings table (table.length + 1) info.unformedDataStart
  return ⟨data, strings⟩

/-- The loop of `BuildEntries`. -/
def buildEntriesFrom : Nat -> Nat -> List TableEntry -> Except Fault (List TableEntry)
  | 0, _, _ => .error .endless
  | fuel + 1, startAddress, entries =>
    let endAddress := table.length - 1
    if startAddress <= endAddress then do
      let maxLength := endAddress - startAddress + 1
      match <- extractSmbiosStructure view table startAddress maxLength with
      | none => return entries
      | some info =>
        let entry <- tableEntry table info
        buildEntriesFrom fuel (startAddress + info.structureSize) (entries ++ [entry])
    else return entries

def buildEntries : Except Fault (List TableEntry) :=
  if table.isEmpty then .ok []
  else buildEntriesFrom view table (table.length + 1) 0 []

end

variable {table : List UInt8}

variable {address : Nat} {rest : List UInt8}

lemma readByte_drop {byte : UInt8}
    (here : table.drop address = byte :: rest) : readByte table address = .ok byte := by
  have found : table[address]? = some byte := by
    rw [<- head?_drop, here]
    rfl
  rw [readByte, found]

/-- What is behind some bytes. -/
lemma drop_append (front : List UInt8)
    (here : table.drop address = front ++ rest) : table.drop (address + front.length) = rest := by
  rw [<- drop_drop, here, drop_left]

lemma mapM_readByte (data : List UInt8) : ∀ {address : Nat} {rest : List UInt8},
    table.drop address = data ++ rest ->
    (range' address data.length).mapM (readByte table) = .ok data := by
  induction data with
  | nil => exact fun _ => rfl
  | cons byte data ih =>
    intro address rest here
    rw [length_cons, range'_succ, mapM_cons, readByte_drop here]
    have later : List.mapM (readByte table) (range' (address + 1) data.length) = .ok data :=
      ih (drop_append [byte] here)
    rw [later]
    rfl

lemma readString_marked (item : List UInt8) : ∀ {address fuel : Nat} {rest : List UInt8},
    0 ∉ item -> table.drop address = item ++ 0 :: rest -> item.length < fuel ->
    readString table fuel address = .ok item := by
  induction item with
  | nil =>
    intro address fuel rest _ here enough
    cases fuel with
    | zero => cases enough
    | succ fuel =>
      rw [readString, readByte_drop here]
      rfl
  | cons c item ih =>
    intro address fuel rest unmarked here enough
    cases fuel with
    | zero => cases enough
    | succ fuel =>
      have present : c ≠ 0 := fun same => unmarked (same ▸ (.head _))
      have later : readString table fuel (address + 1) = .ok item :=
        ih (fun member => unmarked (.tail _ member)) (drop_append [c] here)
          (Nat.lt_of_succ_lt_succ enough)
      rw [readString, readByte_drop here]
      change (if c = 0 then _ else (readString table fuel (address + 1)).bind _) = _
      rw [if_neg present, later]
      rfl

lemma length_of_drop {front : List UInt8}
    (here : table.drop address = front ++ rest) : front.length <= table.length - address := by
  have length := congrArg List.length here
  rw [length_drop, length_append] at length
  omega

lemma readStrings_lists {items : List (List UInt8)} {symbols : List UInt8}
    (lists : Lists 0 items symbols) : ∀ {address fuel : Nat},
    table.drop address = symbols -> table.length < address + fuel ->
    readStrings table fuel address = .ok items := by
  induction lists with
  | done rest =>
    intro address fuel here enough
    cases fuel with
    | zero =>
      rw [drop_eq_nil_of_le (by omega)] at here
      cases here
    | succ fuel =>
      rw [readStrings, readByte_drop here]
      rfl
  | @item item items rest present unmarked later ih =>
    intro address fuel here enough
    cases fuel with
    | zero =>
      rw [drop_eq_nil_of_le (by omega)] at here
      exact absurd here.symm (append_ne_nil_of_left_ne_nil present _)
    | succ fuel =>
      have short := length_of_drop here
      have string : readString table (table.length + 1) address = .ok item :=
        readString_marked item unmarked here (by omega)
      have behind : table.drop (address + item.length + 1) = rest := by
        have moved := drop_append (item ++ [0]) (here.trans (append_assoc item [0] rest).symm)
        rw [length_append] at moved
        exact moved
      cases item with
      | nil => exact absurd rfl present
      | cons c item =>
        have noMark : c ≠ 0 := fun same => unmarked (same ▸ (.head _))
        rw [readStrings, readByte_drop here]
        change (if c = 0 then _ else (readString table (table.length + 1) address).bind _) = _
        rw [if_neg noMark, string]
        change (readStrings table fuel (address + (c :: item).length + 1)).bind _ = _
        rw [ih behind (by omega)]
        rfl

end Ecclesia.Smbios
