import Ecclesia.Usb.Sysfs
import Mathlib.Data.List.Nodup

namespace Ecclesia.Usb

open Absl List
open PathUtil (simpleAtoi32_digits)
open FixedRangeInteger (tryMake tryMake_eq_some tryMake_value)

/-!
# Directory names and locations

Every location is read back from its directory name.  The other way round a name is only written
back if all of its ports fit, since a port that does not fit is left out.
-/

variable {dirname : Text} {bus : Int}

lemma matchUsbDir_iff : matchUsbDir dirname = some bus <->
    ∃ digits, dirname = text "usb" ++ digits ∧ matchInt digits = some bus := by
  unfold matchUsbDir startsWith
  constructor
  · intro matched
    split at matched
    · rename_i starts
      rcases List.isPrefixOf_iff_prefix.mp starts with ⟨digits, rfl⟩
      exact ⟨digits, rfl, matched⟩
    · cases matched
  · rintro ⟨digits, rfl, matched⟩
    exact matched

lemma matchUsbBusPort_iff {portSubstr : Text} :
    matchUsbBusPort dirname = some (bus, portSubstr) <->
      ∃ digits, dirname = digits ++ '-' :: portSubstr ∧ matchInt digits = some bus ∧
        (strSplit '.' portSubstr).all isNumber = true := by
  constructor
  · intro matched
    unfold matchUsbBusPort at matched
    split at matched
    · rename_i rest behind
      split at matched
      · rename_i numbers
        rcases Option.map_eq_some_iff.mp matched with ⟨value, isBus, same⟩
        cases same
        refine ⟨_, ?_, isBus, numbers⟩
        rw [<- behind, takeWhile_append_dropWhile]
      · cases matched
    · cases matched
  · rintro ⟨digits, rfl, isBus, numbers⟩
    have all := (isNumber_iff.mp (matchInt_eq_some.mp isBus).1).2
    have taken : (digits ++ '-' :: portSubstr).takeWhile asciiIsDigit = digits := by
      rw [takeWhile_append_of_pos (all_eq_true.mp all),
        takeWhile_cons_of_neg (by decide), append_nil]
    have dropped : (digits ++ '-' :: portSubstr).dropWhile asciiIsDigit = '-' :: portSubstr := by
      rw [dropWhile_append_of_pos (all_eq_true.mp all), dropWhile_cons_of_neg (by decide)]
    rw [matchUsbBusPort, dropped, taken, isBus]
    exact if_pos numbers

lemma matchUsbDir_none {digits rest : Text} (number : isNumber digits = true) :
    matchUsbDir (digits ++ rest) = none := by
  rcases isNumber_iff.mp number with ⟨some_, all⟩
  cases digits with
  | nil => exact absurd rfl some_
  | cons c digits =>
    have digit := all_eq_true.mp all c (.head _)
    apply if_neg
    intro starts
    rcases List.isPrefixOf_iff_prefix.mp starts with ⟨behind, same⟩
    cases (cons.inj same).1
    exact absurd digit (by decide)

variable {pieces : List Text}

lemma filter_numbers (numbers : pieces.all isNumber = true) :
    (pieces.filter fun piece => !piece.isEmpty) = pieces := by
  apply filter_eq_self.mpr
  intro piece member
  have number := all_eq_true.mp numbers piece member
  rw [isNumber, Bool.and_eq_true] at number
  exact number.1

lemma collectPorts_eq (pieces : List Text) : ∀ seq : UsbPortSequence,
    collectPorts seq pieces = (pieces.mapM simpleAtoi32).map fun numbers =>
      numbers.foldl addPort seq := by
  induction pieces with
  | nil => exact fun _ => rfl
  | cons piece rest ih =>
    intro seq
    rw [collectPorts, mapM_cons]
    cases simpleAtoi32 piece with
    | none => rfl
    | some port =>
      dsimp only
      rw [ih]
      cases rest.mapM simpleAtoi32 with
      | none => rfl
      | some numbers => rfl

lemma addPort_cases (seq : UsbPortSequence) (port : Int) :
    (((1 <= port ∧ port <= 15) ∧ seq.ports.length < kDeviceChainMaxLength) ∧
      (addPort seq port).ports.map FixedRangeInteger.value =
        seq.ports.map FixedRangeInteger.value ++ [port]) ∨
    (¬ ((1 <= port ∧ port <= 15) ∧ seq.ports.length < kDeviceChainMaxLength) ∧
      addPort seq port = seq) := by
  unfold addPort
  cases made : (tryMake port : Option UsbPort) with
  | none =>
    have outside := FixedRangeInteger.tryMake_eq_none.mp made
    exact .inr ⟨fun fits => outside fits.1, rfl⟩
  | some usbPort =>
    have value := tryMake_eq_some.mp made
    have range : 1 <= port ∧ port <= 15 := value ▸ ⟨usbPort.lower, usbPort.upper⟩
    dsimp only
    unfold UsbPortSequence.downstream
    by_cases full : seq.ports.length = kDeviceChainMaxLength
    · rw [dif_pos full]
      exact .inr ⟨fun fits => absurd full (Nat.ne_of_lt fits.2), rfl⟩
    · rw [dif_neg full]
      refine .inl ⟨⟨range, Nat.lt_of_le_of_ne seq.bounded full⟩, ?_⟩
      rw [Option.getD_some, map_append, map_singleton, value]

/-- All ports are there if and only if they fit, and otherwise some are left out. -/
lemma foldl_addPort (numbers : List Int) : ∀ seq : UsbPortSequence,
    ((seq.ports.length + numbers.length <= kDeviceChainMaxLength ∧
        ∀ port ∈ numbers, 1 <= port ∧ port <= 15) ∧
      (numbers.foldl addPort seq).ports.map FixedRangeInteger.value =
        seq.ports.map FixedRangeInteger.value ++ numbers) ∨
    (¬ (seq.ports.length + numbers.length <= kDeviceChainMaxLength ∧
        ∀ port ∈ numbers, 1 <= port ∧ port <= 15) ∧
      (numbers.foldl addPort seq).ports.length < seq.ports.length + numbers.length) := by
  induction numbers with
  | nil =>
    intro seq
    refine .inl ⟨⟨seq.bounded, forall_mem_nil _⟩, ?_⟩
    rw [append_nil]
    rfl
  | cons port rest ih =>
    intro seq
    rw [foldl_cons, length_cons]
    rcases addPort_cases seq port with ⟨fits, added⟩ | ⟨outside, same⟩
    · have longer : (addPort seq port).ports.length = seq.ports.length + 1 := by
        have lengths := congrArg List.length added
        simpa using lengths
      rcases ih (addPort seq port) with ⟨⟨few, inRange⟩, all⟩ | ⟨unfit, fewer⟩
      · refine .inl ⟨⟨by omega, ?_⟩, ?_⟩
        · intro other member
          rcases mem_cons.mp member with rfl | later
          · exact fits.1
          · exact inRange other later
        · rw [all, added, append_assoc]
          rfl
      · refine .inr ⟨?_, by omega⟩
        rintro ⟨few, inRange⟩
        apply unfit
        exact ⟨by omega, fun other member => inRange other (.tail _ member)⟩
    · rw [same]
      refine .inr ⟨?_, ?_⟩
      · rintro ⟨few, inRange⟩
        exact outside ⟨inRange port (.head _), by omega⟩
      · rcases ih seq with ⟨_, all⟩ | ⟨_, fewer⟩
        · have lengths := congrArg List.length all
          simp only [length_map, length_append] at lengths
          omega
        · omega

lemma UsbPortSequence.eq_of_values {first second : UsbPortSequence}
    (same : first.ports.map FixedRangeInteger.value = second.ports.map FixedRangeInteger.value) :
    first = second := by
  have injective : Function.Injective (FixedRangeInteger.value : UsbPort -> Int) :=
    fun _ _ equal => FixedRangeInteger.ext equal
  have ports := (map_injective_iff.mpr injective) same
  cases first
  cases second
  cases ports
  rfl

lemma directoryToUsbLocation_ports {portSubstr : Text}
    (matched : matchUsbBusPort dirname = some (bus, portSubstr)) :
    directoryToUsbLocation dirname = (tryMake bus : Option UsbBusLocation).bind fun usbBus =>
        ((strSplit '.' portSubstr).mapM simpleAtoi32).map fun numbers =>
          ⟨usbBus, numbers.foldl addPort .empty⟩ := by
  rcases matchUsbBusPort_iff.mp matched with ⟨digits, rfl, isBus, numbers⟩
  rw [directoryToUsbLocation, matchUsbDir_none (matchInt_eq_some.mp isBus).1, matched]
  dsimp only
  cases (tryMake bus : Option UsbBusLocation) with
  | none => rfl
  | some usbBus =>
    dsimp only
    rw [filter_numbers numbers, collectPorts_eq, Option.map_map]
    rfl

lemma directoryToUsbLocation_bus (matched : matchUsbDir dirname = some bus) :
    directoryToUsbLocation dirname = (tryMake bus).map fun usbBus => ⟨usbBus, .empty⟩ := by
  rw [directoryToUsbLocation, matched]

lemma bus_small (bus : UsbBusLocation) : 0 <= bus.value ∧ bus.value < 2 ^ 31 := by
  have lower := bus.lower
  have upper := bus.upper
  omega

lemma port_small (port : UsbPort) : 0 <= port.value ∧ port.value < 2 ^ 31 := by
  have lower := port.lower
  have upper := port.upper
  omega

def portTexts (loc : UsbLocation) : List Text :=
  loc.ports.ports.map fun port => strCatInt port.value

lemma portTexts_numbers (loc : UsbLocation) : (portTexts loc).all isNumber = true := by
  apply all_eq_true.mpr
  intro piece member
  rcases mem_map.mp member with ⟨port, _, rfl⟩
  exact (matchInt_strCatInt (port_small port).1 (port_small port).2).1

variable {loc : UsbLocation}

lemma strSplit_portTexts (some_ : loc.ports.ports ≠ []) :
    strSplit '.' (strJoin (portTexts loc) (text ".")) = portTexts loc := by
  apply splitOn_intercalate
  · intro piece member dot
    have number := all_eq_true.mp (portTexts_numbers loc) piece member
    have digit := all_eq_true.mp (isNumber_iff.mp number).2 '.' dot
    exact absurd digit (by decide)
  · exact fun none_ => some_ (map_eq_nil_iff.mp none_)

lemma matchUsbBusPort_directory (some_ : loc.ports.ports ≠ []) :
    matchUsbBusPort (usbLocationToDirectory loc) =
      some (loc.bus.value, strJoin (portTexts loc) (text ".")) := by
  rw [usbLocationToDirectory, if_neg some_]
  apply matchUsbBusPort_iff.mpr
  refine ⟨_, rfl, (matchInt_strCatInt (bus_small _).1 (bus_small _).2).2.2, ?_⟩
  rw [strSplit_portTexts some_]
  exact portTexts_numbers loc

lemma matchUsbDir_directory (none_ : loc.ports.ports = []) :
    matchUsbDir (usbLocationToDirectory loc) = some loc.bus.value := by
  rw [usbLocationToDirectory, if_pos none_]
  exact matchUsbDir_iff.mpr ⟨_, rfl, (matchInt_strCatInt (bus_small _).1 (bus_small _).2).2.2⟩

lemma mapM_portTexts (ports : List UsbPort) :
    (ports.map fun port => strCatInt port.value).mapM simpleAtoi32 =
      some (ports.map FixedRangeInteger.value) := by
  induction ports with
  | nil => rfl
  | cons port rest ih =>
    rw [map_cons, mapM_cons, (matchInt_strCatInt (port_small port).1 (port_small port).2).2.1, ih]
    rfl

lemma directoryToUsbLocation_directory (loc : UsbLocation) :
    directoryToUsbLocation (usbLocationToDirectory loc) = some loc := by
  by_cases none_ : loc.ports.ports = []
  · rw [directoryToUsbLocation_bus (matchUsbDir_directory none_),
      tryMake_value, Option.map_some]
    have empty : UsbPortSequence.empty = loc.ports := by
      apply UsbPortSequence.eq_of_values
      rw [none_]
      rfl
    rw [empty]
  · rw [directoryToUsbLocation_ports (matchUsbBusPort_directory none_),
      tryMake_value, Option.bind_some, strSplit_portTexts none_, portTexts,
      mapM_portTexts, Option.map_some]
    have all : (loc.ports.ports.map FixedRangeInteger.value).foldl addPort .empty = loc.ports := by
      apply UsbPortSequence.eq_of_values
      rcases foldl_addPort (loc.ports.ports.map FixedRangeInteger.value) .empty with
        ⟨_, values⟩ | ⟨unfit, _⟩
      · exact values
      · apply absurd _ unfit
        constructor
        · rw [length_map]
          exact (Nat.zero_add _).trans_le loc.ports.bounded
        · intro value member
          rcases mem_map.mp member with ⟨port, _, rfl⟩
          exact ⟨port.lower, port.upper⟩
    rw [all]

lemma plain_of_run {before digits after : Text}
    (noZeros : NoLeadingZeros (before ++ (digits ++ after))) (all : digits.all asciiIsDigit = true)
    (first : before.getLast?.any asciiIsDigit = false) : Plain digits := by
  intro zero
  cases digits with
  | nil => cases zero
  | cons c rest =>
    cases zero
    cases rest with
    | nil => rfl
    | cons next more =>
      have digit := all_eq_true.mp all next (.tail _ (.head _))
      have behind := noZeros before next (more ++ after) rfl digit
      rw [first] at behind
      cases behind

lemma strJoin_split (separator : Char) (before after : List Text) (piece : Text) :
    ∃ front back, strJoin (before ++ piece :: after) [separator] = front ++ (piece ++ back) ∧
      (front = [] ∨ front.getLast? = some separator) := by
  induction before with
  | nil =>
    cases after with
    | nil => exact ⟨[], [], by simp [strJoin], .inl rfl⟩
    | cons next after =>
      refine ⟨[], separator :: strJoin (next :: after) [separator], ?_, .inl rfl⟩
      rfl
  | cons first before ih =>
    rcases ih with ⟨front, back, joined, ends⟩
    refine ⟨first ++ separator :: front, back, ?_, .inr ?_⟩
    · cases rest : before ++ piece :: after with
      | nil => simp at rest
      | cons next others =>
        rw [rest] at joined
        rw [cons_append, rest, strJoin, intercalate_cons_cons]
        rw [strJoin] at joined
        rw [joined]
        simp
    · rcases ends with rfl | last
      · rw [getLast?_append]
        rfl
      · rw [getLast?_append, getLast?_cons, last]
        rfl

section

variable {dirname : Text}

variable {portSubstr : Text}

lemma plain_bus {digits : Text} (noZeros : NoLeadingZeros (digits ++ '-' :: portSubstr))
    (all : digits.all asciiIsDigit = true) : Plain digits :=
  @plain_of_run [] digits ('-' :: portSubstr) noZeros all rfl

lemma plain_port {digits piece : Text} (noZeros : NoLeadingZeros (digits ++ '-' :: portSubstr))
    (member : piece ∈ strSplit '.' portSubstr) (all : piece.all asciiIsDigit = true) :
    Plain piece := by
  rcases append_of_mem member with ⟨before, after, split⟩
  rcases strJoin_split '.' before after piece with ⟨front, back, joined, ends⟩
  rw [<- split, strSplit, strJoin, intercalate_splitOn] at joined
  have whole : digits ++ '-' :: portSubstr = (digits ++ '-' :: front) ++ (piece ++ back) := by
    rw [joined, append_assoc]
    rfl
  rw [whole] at noZeros
  apply plain_of_run noZeros all
  rcases ends with rfl | last
  · rw [getLast?_append]
    rfl
  · rw [getLast?_append, getLast?_cons, last]
    rfl

lemma map_strCatInt_of_mapM {numbers : List Int} (read : pieces.mapM simpleAtoi32 = some numbers)
    (plain : ∀ piece ∈ pieces, isNumber piece = true ∧ Plain piece) :
    numbers.map strCatInt = pieces := by
  induction pieces generalizing numbers with
  | nil =>
    cases read
    rfl
  | cons piece rest ih =>
    rw [mapM_cons] at read
    rcases Option.bind_eq_some_iff.mp read with ⟨port, isPort, more⟩
    rcases Option.bind_eq_some_iff.mp more with ⟨others, areOthers, same⟩
    cases same
    have here := plain piece (.head _)
    rw [simpleAtoi32_digits (isNumber_iff.mp here.1).2] at isPort
    rw [map_cons, strCatInt_matchInt isPort here.2,
      ih areOthers fun other member => plain other (.tail _ member)]

lemma length_of_mapM {numbers : List Int}
    (read : pieces.mapM simpleAtoi32 = some numbers) : numbers.length = pieces.length := by
  induction pieces generalizing numbers with
  | nil =>
    cases read
    rfl
  | cons piece rest ih =>
    rw [mapM_cons] at read
    rcases Option.bind_eq_some_iff.mp read with ⟨port, _, more⟩
    rcases Option.bind_eq_some_iff.mp more with ⟨others, areOthers, same⟩
    cases same
    rw [length_cons, length_cons, ih areOthers]

lemma identifies_of_bus {bus : Int} (noZeros : NoLeadingZeros dirname)
    (matched : matchUsbDir dirname = some bus) : Identifies dirname := by
  intro location decoded
  rw [directoryToUsbLocation_bus matched] at decoded
  rcases Option.map_eq_some_iff.mp decoded with ⟨usbBus, made, rfl⟩
  rcases matchUsbDir_iff.mp matched with ⟨digits, rfl, isBus⟩
  have all := (isNumber_iff.mp (matchInt_eq_some.mp isBus).1).2
  have plain : Plain digits := by
    apply @plain_of_run (text "usb") digits [] _ all (by decide)
    rwa [append_nil]
  change text "usb" ++ strCatInt usbBus.value = text "usb" ++ digits
  rw [tryMake_eq_some.mp made, strCatInt_matchInt isBus plain]

lemma identifies_ports_iff {bus : Int} (noZeros : NoLeadingZeros dirname)
    (matched : matchUsbBusPort dirname = some (bus, portSubstr)) :
    Identifies dirname <-> PortsFit dirname := by
  have decode := directoryToUsbLocation_ports matched
  rcases matchUsbBusPort_iff.mp matched with ⟨digits, whole, isBus, areNumbers⟩
  have bus_iff : (1 <= bus ∧ bus <= 255) <-> ∃ usbBus : UsbBusLocation, usbBus.value = bus := by
    constructor
    · exact fun fits => ⟨⟨bus, fits.1, fits.2⟩, rfl⟩
    · rintro ⟨usbBus, rfl⟩
      exact ⟨usbBus.lower, usbBus.upper⟩
  constructor
  · intro identifies bus' portSubstr' numbers matched' fits read
    rw [matched] at matched'
    cases matched'
    rcases bus_iff.mp fits with ⟨usbBus, rfl⟩
    rw [tryMake_value, read] at decode
    rcases foldl_addPort numbers .empty with ⟨all, _⟩ | ⟨_, fewer⟩
    · refine ⟨?_, all.2⟩
      exact (Nat.zero_add _).symm.trans_le all.1
    · exfalso
      -- The location has fewer ports than the name, but it would be written as this name.
      have written := identifies _ decode
      have count := length_of_mapM read
      by_cases none_ : (numbers.foldl addPort .empty).ports = []
      · have bare := @matchUsbDir_directory ⟨usbBus, numbers.foldl addPort .empty⟩ none_
        rw [written, whole, matchUsbDir_none (matchInt_eq_some.mp isBus).1] at bare
        cases bare
      · have ports := @matchUsbBusPort_directory ⟨usbBus, numbers.foldl addPort .empty⟩ none_
        rw [written, matched] at ports
        have texts := @strSplit_portTexts ⟨usbBus, numbers.foldl addPort .empty⟩ none_
        rw [<- (Prod.mk.inj (Option.some.inj ports)).2] at texts
        rw [count, texts, portTexts] at fewer
        exact absurd fewer (by simp [UsbPortSequence.empty])
  · intro fit location decoded
    rw [decode] at decoded
    rcases Option.bind_eq_some_iff.mp decoded with ⟨usbBus, made, collected⟩
    rcases Option.map_eq_some_iff.mp collected with ⟨numbers, read, rfl⟩
    have value := tryMake_eq_some.mp made
    have fits := fit bus portSubstr numbers matched (bus_iff.mpr ⟨usbBus, value⟩) read
    rcases foldl_addPort numbers .empty with ⟨_, values⟩ | ⟨unfit, _⟩
    · rw [whole] at noZeros
      have all := (isNumber_iff.mp (matchInt_eq_some.mp isBus).1).2
      have texts : numbers.map strCatInt = strSplit '.' portSubstr := by
        apply map_strCatInt_of_mapM read
        intro piece member
        have number := all_eq_true.mp areNumbers piece member
        exact ⟨number, plain_port noZeros member (isNumber_iff.mp number).2⟩
      have written : portTexts ⟨usbBus, numbers.foldl addPort .empty⟩ =
          strSplit '.' portSubstr := by
        have same : (numbers.foldl addPort .empty).ports.map FixedRangeInteger.value = numbers :=
          values
        calc
          portTexts ⟨usbBus, numbers.foldl addPort .empty⟩ =
              ((numbers.foldl addPort .empty).ports.map FixedRangeInteger.value).map strCatInt := by
            rw [map_map]
            rfl
          _ = strSplit '.' portSubstr := by rw [same, texts]
      have some_ : (numbers.foldl addPort .empty).ports ≠ [] := by
        intro none_
        rw [portTexts, none_] at written
        exact splitOn_ne_nil '.' portSubstr written.symm
      rw [usbLocationToDirectory, if_neg some_]
      change strCatInt usbBus.value ++
        '-' :: strJoin (portTexts ⟨usbBus, numbers.foldl addPort .empty⟩) (text ".") = dirname
      rw [written, value, strCatInt_matchInt isBus (plain_bus noZeros all), whole]
      exact congrArg (fun rest => digits ++ '-' :: rest) (intercalate_splitOn '.')
    · exact absurd ⟨(Nat.zero_add _).trans_le fits.1, fits.2⟩ unfit

lemma identifies_iff (noZeros : NoLeadingZeros dirname) :
    Identifies dirname <-> PortsFit dirname := by
  cases matched : matchUsbBusPort dirname with
  | some parts => exact identifies_ports_iff noZeros matched
  | none =>
    apply iff_of_true
    · cases controller : matchUsbDir dirname with
      | some bus => exact identifies_of_bus noZeros controller
      | none =>
        intro location decoded
        rw [directoryToUsbLocation, controller, matched] at decoded
        cases decoded
    · intro bus portSubstr numbers isPorts
      rw [matched] at isPorts
      cases isPorts

lemma noLeadingZeros_of_absent (absent : '0' ∉ dirname) : NoLeadingZeros dirname := by
  intro before next after same _
  apply absurd _ absent
  rw [same]
  exact mem_append_right _ (.head _)

lemma nodup_filterMap {names : List Text} (distinct : names.Nodup)
    (identify : ∀ name ∈ names, Identifies name) :
    (names.filterMap directoryToUsbLocation).Nodup := by
  have written : (names.filterMap directoryToUsbLocation).map usbLocationToDirectory =
      names.filter fun name => (directoryToUsbLocation name).isSome := by
    clear distinct
    induction names with
    | nil => rfl
    | cons name rest ih =>
      have later := ih fun other member => identify other (.tail _ member)
      cases decoded : directoryToUsbLocation name with
      | none =>
        rw [filterMap_cons_none decoded, filter_cons_of_neg (by rw [decoded]; simp)]
        exact later
      | some location =>
        rw [filterMap_cons_some decoded, filter_cons_of_pos (by rw [decoded]; rfl),
          map_cons, later, identify name (.head _) location decoded]
  apply Nodup.of_map usbLocationToDirectory
  rw [written]
  exact distinct.filter _

end

/-- Locations are read back from their names. A name without zeros in front is written back exactly
if its ports fit, and such names are of different locations. -/
theorem directoryToUsbLocation_identifies :
    ∀ (location : UsbLocation) (dirname : Text) (entries : List Text),
      directoryToUsbLocation (usbLocationToDirectory location) = some location ∧
      (NoLeadingZeros dirname -> (Identifies dirname <-> PortsFit dirname)) ∧
      ((entries.map getBasename).Nodup ->
        (∀ entry ∈ entries, NoLeadingZeros (getBasename entry) ∧ PortsFit (getBasename entry)) ->
        (enumerateAllUsbDevices entries).Nodup) := by
  intro location dirname entries
  refine ⟨directoryToUsbLocation_directory location, identifies_iff, ?_⟩
  intro distinct fit
  have names : (entries.map getBasename).filterMap directoryToUsbLocation =
      enumerateAllUsbDevices entries := List.filterMap_map
  rw [<- names]
  apply nodup_filterMap distinct
  intro name member
  rcases List.mem_map.mp member with ⟨entry, isEntry, rfl⟩
  rcases fit entry isEntry with ⟨noZeros, portsFit⟩
  exact (identifies_iff noZeros).mpr portsFit

theorem directoryToUsbLocation_identifies_hub : Identifies (text "4-3.6") := by
  have identifies := directoryToUsbLocation_identifies ⟨⟨4, by decide, by decide⟩, .empty⟩
    (text "4-3.6") []
  apply (identifies.2.1 (noLeadingZeros_of_absent (by decide))).mpr
  intro bus portSubstr numbers matched _ read
  cases matched
  cases read
  decide

/-- A port above the range is left out, so that the name is read as the one of the hub. -/
theorem directoryToUsbLocation_port_sixteen :
    ¬ ∀ dirname : Text, NoLeadingZeros dirname -> Identifies dirname := by
  intro always
  have noZeros : NoLeadingZeros (text "1-2.16") := noLeadingZeros_of_absent (by decide)
  have decoded : directoryToUsbLocation (text "1-2.16") =
      some ⟨⟨1, by decide, by decide⟩, ⟨[⟨2, by decide, by decide⟩], by decide⟩⟩ := by
    decide +kernel
  have written := always (text "1-2.16") noZeros _ decoded
  exact absurd written (by decide +kernel)

end Ecclesia.Usb
