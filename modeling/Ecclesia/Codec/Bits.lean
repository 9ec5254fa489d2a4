import Ecclesia.Library.Masks
import Mathlib.Data.BitVec

namespace Ecclesia.Codec

open List Bool Nat

open Masks (Follows)
open BitVec (allOnes getElem_allOnes getElem_and getElem_not getElem_or testBit_toNat toNat_and
  toNat_or)

/-!
# Masked addresses

The bits of an address that are set in a mask are known, and the others may be anything.  The
iteration over the matching addresses counts past the known bits, and the tests of a range decide by
the first and the last of them as far as they can.

The definitions follow `bits.h` and `bits.cc`.
-/

/-- `MaskedAddress` -/
structure MaskedAddress where
  addr : BitVec 64
  mask : BitVec 64

/-- `MaskedAddress::iterator` -/
structure Iterator where
  addr : BitVec 64
  mask : BitVec 64
  done : Bool

variable {addresses : List (BitVec 64)}

namespace Iterator

/-- The default-constructed iterator, of which only `done_` is ever compared. -/
def finished : Iterator := ⟨0, 0, true⟩

/-- `operator++` -/
def advance (it : Iterator) : Iterator :=
  let addr := (((it.addr ||| it.mask) + 1) &&& ~~~it.mask) ||| (it.addr &&& it.mask)
  ⟨addr, it.mask, it.done || (addr &&& ~~~it.mask) == 0⟩

/-- `operator==` -/
def equals (first second : Iterator) : Bool :=
  if first.done && second.done then true
  else if first.done || second.done then false
  else first.addr == second.addr && first.mask == second.mask

def collect : Nat -> Iterator -> Option (List (BitVec 64))
  | 0, _ => none
  | steps + 1, it =>
    if it.equals finished then some []
    else (collect steps it.advance).map fun addresses => it.addr :: addresses

/-- `std::any_of` to the end, within a number of steps. -/
def anyOf (holds : BitVec 64 -> Bool) : Nat -> Iterator -> Option Bool
  | 0, _ => none
  | steps + 1, it =>
    if it.equals finished then some false
    else if holds it.addr then some true
    else anyOf holds steps it.advance

lemma anyOf_of_collect (holds : BitVec 64 -> Bool) {steps : Nat} {it : Iterator}
    (collected : collect steps it = some addresses) :
    anyOf holds steps it = some (addresses.any holds) := by
  induction steps generalizing it addresses with
  | zero => cases collected
  | succ steps ih =>
    rw [collect] at collected
    rw [anyOf]
    split at collected
    next ends =>
      rw [if_pos ends, <- Option.some.inj collected]
      rfl
    next goesOn =>
      rcases Option.map_eq_some_iff.mp collected with ⟨rest, later, whole⟩
      rw [if_neg goesOn, <- whole, any_cons, ih later]
      cases holds it.addr <;> rfl

end Iterator

namespace MaskedAddress

variable (address : MaskedAddress)

def first : BitVec 64 := address.addr &&& address.mask

def last : BitVec 64 := address.addr ||| ~~~address.mask

def begin : Iterator := ⟨address.first, address.mask, false⟩

/-- `absl::has_single_bit` -/
def hasSingleBit (value : BitVec 64) : Bool :=
  (List.range 64).any fun position => value == 1#64 <<< position

/-- `Contiguous` -/
def contiguous : Bool := hasSingleBit (~~~address.mask + 1)

/-- An address that the masked address stands for. -/
def Matches (candidate : BitVec 64) : Prop :=
  candidate &&& address.mask = address.addr &&& address.mask

end MaskedAddress

section

variable {mask current other : BitVec 64}

/-- The address behind another one with the same known bits. -/
abbrev nextAddress (mask current : BitVec 64) : BitVec 64 :=
  (((current ||| mask) + 1) &&& ~~~mask) ||| (current &&& mask)

lemma nextAddress_fixed (mask current : BitVec 64) :
    nextAddress mask current &&& mask = current &&& mask := by
  rw [BitVec.and_or_distrib_right]
  ext i
  simp

lemma nextAddress_free (mask current : BitVec 64) :
    nextAddress mask current ||| mask = ((current ||| mask) + 1) ||| mask := by
  ext i
  simp only [getElem_or, getElem_and, getElem_not]
  cases mask[i] <;> simp

lemma follows_nextAddress (mask current : BitVec 64) (more : current ||| mask ≠ allOnes 64) :
    Follows mask.toNat current.toNat (nextAddress mask current).toNat := by
  have below : (current ||| mask).toNat ≠ 2 ^ 64 - 1 := by
    intro largest
    exact more (BitVec.eq_of_toNat_eq (largest.trans BitVec.toNat_allOnes.symm))
  have sum : ((current ||| mask) + 1).toNat = (current.toNat ||| mask.toNat) + 1 := by
    exact mod_eq_of_lt (by change _ + 1 < _; omega)
  constructor
  · rw [<- toNat_and, <- toNat_and, nextAddress_fixed]
  · rw [<- toNat_or, nextAddress_free, toNat_or, sum]

/-- With all unknown bits set, no other address comes behind. -/
lemma le_of_full (full : current ||| mask = allOnes 64)
    (fixed : other &&& mask = current &&& mask) : other <= current := by
  have covers : current = other ||| current := by
    ext i within
    have atFull := congrArg (fun value => value[i]) full
    have atFixed := congrArg (fun value => value[i]) fixed
    simp only [getElem_or, getElem_and, getElem_allOnes] at atFull atFixed ⊢
    cases bit : mask[i] with
    | false =>
      rw [bit, Bool.or_false] at atFull
      rw [atFull, Bool.or_true]
    | true =>
      rw [bit, Bool.and_true, Bool.and_true] at atFixed
      rw [atFixed, Bool.or_self]
  rw [covers]
  exact left_le_or

lemma last_fixed (mask current : BitVec 64) :
    (current ||| ~~~mask) &&& mask = current &&& mask := by
  ext i
  simp only [getElem_or, getElem_and, getElem_not]
  cases mask[i] <;> simp

lemma last_full (mask current : BitVec 64) : (current ||| ~~~mask) ||| mask = allOnes 64 := by
  ext i
  simp only [getElem_or, getElem_not, getElem_allOnes]
  cases mask[i] <;> simp

lemma lt_last (more : current ||| mask ≠ allOnes 64) : current < current ||| ~~~mask := by
  refine BitVec.lt_of_le_ne ?_ ?_
  · exact left_le_or
  · intro same
    exact more ((congrArg (fun value => value ||| mask) same).trans (last_full mask current))

lemma nextAddress_of_full (full : current ||| mask = allOnes 64) :
    nextAddress mask current = current &&& mask := by
  have wraps : allOnes 64 + 1 = 0#64 := by decide
  rw [nextAddress, full, wraps, BitVec.zero_and, BitVec.zero_or]

lemma fixed_le (fixed : other &&& mask = current &&& mask) : current &&& mask <= other := by
  rw [<- fixed]
  exact and_le_left

end

/-- The addresses from one on that have its known bits. -/
structure Enumerates (mask start : BitVec 64) (addresses : List (BitVec 64)) : Prop where
  collected : Iterator.collect (addresses.length + 1) ⟨start, mask, false⟩ = some addresses
  increasing : addresses.Pairwise (· < ·)
  members : ∀ candidate, candidate ∈ addresses ↔
    candidate &&& mask = start &&& mask ∧ start <= candidate
  first : addresses.head? = some start
  last : addresses.getLast? = some (start ||| ~~~mask)

section

variable {mask current : BitVec 64}

lemma enumerates_last (full : current ||| mask = allOnes 64) :
    Enumerates mask current [current] where
  collected := by
    have ends : (current &&& mask) &&& ~~~mask = 0 := by
      ext i
      simp
    have advanced : Iterator.advance ⟨current, mask, false⟩ = ⟨current &&& mask, mask, true⟩ := by
      simp only [Iterator.advance, nextAddress_of_full full, ends, BEq.rfl, Bool.or_true]
    rw [Iterator.collect, advanced]
    rfl
  increasing := pairwise_singleton _ _
  members candidate := by
    rw [mem_singleton]
    constructor
    · rintro rfl
      exact ⟨rfl, BitVec.le_refl _⟩
    · exact fun matching => BitVec.le_antisymm (le_of_full full matching.1) matching.2
  first := rfl
  last := by
    rw [getLast?_singleton]
    congr 1
    ext i within
    have atFull := congrArg (fun value => value[i]) full
    simp only [getElem_or, getElem_not, getElem_allOnes] at atFull ⊢
    cases bit : mask[i] with
    | false =>
      rw [bit, Bool.or_false] at atFull
      rw [atFull, Bool.true_or]
    | true => rw [Bool.not_true, Bool.or_false]

lemma enumerates_next (more : current ||| mask ≠ allOnes 64)
    (enumerates : Enumerates mask (nextAddress mask current) addresses) :
    Enumerates mask current (current :: addresses) := by
  have follows := follows_nextAddress mask current more
  have fixed := nextAddress_fixed mask current
  have least {candidate : BitVec 64} (matching : candidate &&& mask = current &&& mask)
      (above : current < candidate) :
      current < nextAddress mask current ∧ nextAddress mask current <= candidate :=
    follows.least (by rw [<- toNat_and, <- toNat_and, matching]) above
  have higher := (least (last_fixed mask current) (lt_last more)).1
  constructor
  case collected =>
    have goesOn : (nextAddress mask current &&& ~~~mask == 0) = false := by
      rw [beq_eq_false_iff_ne]
      intro free
      have known : nextAddress mask current = current &&& mask := by
        rw [<- fixed]
        ext i within
        have atFree := congrArg (fun value => value[i]) free
        simp only [getElem_and, getElem_not] at atFree ⊢
        cases bit : mask[i] with
        | false =>
          rw [bit, Bool.not_false, Bool.and_true] at atFree
          rw [atFree, Bool.and_false]
          exact BitVec.getElem_zero within
        | true => rw [Bool.and_true]
      exact BitVec.lt_irrefl _ (Nat.lt_of_lt_of_le higher (known ▸ fixed_le rfl))
    have advanced : Iterator.advance ⟨current, mask, false⟩ =
        ⟨nextAddress mask current, mask, false⟩ := by
      simp only [Iterator.advance, goesOn, Bool.or_false]
    rw [length_cons, Iterator.collect, advanced, enumerates.collected]
    rfl
  case increasing =>
    refine pairwise_cons.mpr ⟨?_, enumerates.increasing⟩
    intro candidate member
    exact Nat.lt_of_lt_of_le higher ((enumerates.members candidate).mp member).2
  case members =>
    intro candidate
    rw [mem_cons, enumerates.members, fixed]
    constructor
    · rintro (rfl | ⟨matching, later⟩)
      · exact ⟨rfl, BitVec.le_refl _⟩
      · exact ⟨matching, BitVec.le_of_lt (Nat.lt_of_lt_of_le higher later)⟩
    · rintro ⟨matching, from_current⟩
      rcases Nat.eq_or_lt_of_le from_current with same | above
      · exact .inl (BitVec.eq_of_toNat_eq same.symm)
      · exact .inr ⟨matching, (least matching above).2⟩
  case first => rfl
  case last =>
    rw [getLast?_cons, enumerates.last, Option.getD_some]
    congr 1
    have known (value : BitVec 64) : value ||| ~~~mask = (value &&& mask) ||| ~~~mask := by
      ext i
      simp only [getElem_or, getElem_and, getElem_not]
      cases mask[i] <;> simp
    rw [known, fixed, <- known]

lemma enumerates (mask current : BitVec 64) : ∃ addresses, Enumerates mask current addresses := by
  -- By induction on how many numbers are above the address.
  induction left : 2 ^ 64 - current.toNat using Nat.strong_induction_on generalizing current with
  | h left ih =>
    by_cases full : current ||| mask = allOnes 64
    · exact ⟨_, enumerates_last full⟩
    · have higher := (follows_nextAddress mask current full).least
        (by rw [<- toNat_and, last_fixed, toNat_and]) (lt_last full)
      rcases ih _ (by omega) (nextAddress mask current) rfl with ⟨addresses, later⟩
      exact ⟨_, enumerates_next full later⟩

end

namespace MaskedAddress

variable {address : MaskedAddress} {candidate : BitVec 64}

section

variable (address : MaskedAddress)

lemma first_fixed : address.first &&& address.mask = address.addr &&& address.mask := by
  rw [first, BitVec.and_assoc, BitVec.and_self]

lemma first_last : address.first ||| ~~~address.mask = address.last := by
  rw [first, last]
  ext i
  simp only [getElem_or, getElem_and, getElem_not]
  cases address.mask[i] <;> simp

lemma matches_first : address.Matches address.first := first_fixed address

lemma matches_last : address.Matches address.last := last_fixed address.mask address.addr

end

lemma first_le (matching : address.Matches candidate) : address.first <= candidate :=
  fixed_le matching

lemma le_last (matching : address.Matches candidate) : candidate <= address.last :=
  le_of_full (last_full address.mask address.addr) (matching.trans (matches_last address).symm)

lemma mem_of_enumerates (enumerates : Enumerates address.mask address.first addresses) :
    candidate ∈ addresses ↔ address.Matches candidate := by
  rw [enumerates.members, first_fixed]
  exact ⟨And.left, fun matching => ⟨matching, first_le matching⟩⟩

/-- The iteration ends after the matching addresses, each once and in increasing order. -/
theorem iterates (address : MaskedAddress) : ∃ addresses,
    Iterator.collect (addresses.length + 1) address.begin = some addresses ∧
    addresses.Pairwise (· < ·) ∧
    (∀ candidate, candidate ∈ addresses ↔ address.Matches candidate) ∧
    addresses.head? = some address.first ∧ addresses.getLast? = some address.last := by
  rcases enumerates address.mask address.first with ⟨addresses, enumerates⟩
  refine ⟨addresses, enumerates.collected, enumerates.increasing, ?_, enumerates.first, ?_⟩
  · exact fun candidate => mem_of_enumerates enumerates
  · rw [enumerates.last, first_last]

end MaskedAddress

section

variable {address : MaskedAddress} {candidate : BitVec 64} {position : Nat}

lemma mask_getElem (within : position < 64) (single : ~~~address.mask + 1 = 1#64 <<< position)
    {i : Nat} (bound : i < 64) : address.mask[i] = decide (position <= i) := by
  have power : 2 ^ position < 2 ^ 64 := Nat.pow_lt_pow_right (by decide) within
  have positive : 0 < 2 ^ position := Nat.two_pow_pos position
  have unknown : (~~~address.mask).toNat = 2 ^ position - 1 := by
    have values := congrArg BitVec.toNat single
    rw [BitVec.toNat_shiftLeft, shiftLeft_eq] at values
    have one : (1#64).toNat = 1 := rfl
    rw [one, Nat.one_mul, mod_eq_of_lt power] at values
    change ((~~~address.mask).toNat + 1) % 2 ^ 64 = 2 ^ position at values
    omega
  have flipped : (~~~address.mask)[i] = decide (i < position) := by
    rw [<- BitVec.getLsbD_eq_getElem, BitVec.getLsbD, unknown, testBit_two_pow_sub_one]
  rw [getElem_not] at flipped
  rw [<- not_not address.mask[i], flipped, <- decide_not]
  exact decide_eq_decide.mpr Nat.not_lt

lemma matches_iff_div (within : position < 64) (single : ~~~address.mask + 1 = 1#64 <<< position) :
    address.Matches candidate ↔
      candidate.toNat / 2 ^ position = address.addr.toNat / 2 ^ position := by
  have known {i : Nat} (bound : i < 64) := mask_getElem within single bound
  constructor
  · intro matching
    apply eq_of_testBit_eq
    intro i
    rw [testBit_div_two_pow, testBit_div_two_pow, testBit_toNat, testBit_toNat]
    by_cases bound : i + position < 64
    · have bits := congrArg (fun value => value[i + position]) matching
      simp only [getElem_and, known bound, Nat.le_add_left, decide_true, Bool.and_true] at bits
      exact bits
    · rw [BitVec.getLsbD_of_ge _ _ (by omega), BitVec.getLsbD_of_ge _ _ (by omega)]
  · intro same
    ext i bound
    rw [getElem_and, getElem_and, known bound]
    by_cases high : position <= i
    · have bits := congrArg (fun value => value.testBit (i - position)) same
      simp only [testBit_div_two_pow, Nat.sub_add_cancel high, testBit_toNat,
        BitVec.getLsbD_eq_getElem bound] at bits
      rw [bits]
    · rw [decide_eq_false high, Bool.and_false, Bool.and_false]

lemma matches_of_contiguous (contiguous : address.contiguous = true)
    (above : address.first <= candidate) (below : candidate <= address.last) :
    address.Matches candidate := by
  rcases any_eq_true.mp contiguous with ⟨position, inRange, single⟩
  have iff {candidate : BitVec 64} : address.Matches candidate ↔
      candidate.toNat / 2 ^ position = address.addr.toNat / 2 ^ position :=
    matches_iff_div (mem_range.mp inRange) (beq_iff_eq.mp single)
  have low := iff.mp address.matches_first
  have high := iff.mp address.matches_last
  refine iff.mpr (Nat.le_antisymm ?_ ?_)
  · exact high ▸ Nat.div_le_div_right below
  · exact low ▸ Nat.div_le_div_right above

end

/-- `AddressRange`, which is empty if its last address is below the first. -/
structure AddressRange where
  first : BitVec 64
  last : BitVec 64

namespace AddressRange

variable (range : AddressRange) (address : MaskedAddress)

def empty : Bool := range.last < range.first

def inRange (candidate : BitVec 64) : Bool :=
  if range.empty then false else range.first <= candidate && candidate <= range.last

def coversMask : Bool :=
  range.first <= address.first && address.last <= range.last

/-- `OverlapsMask`, with a bound on the steps of its loop. -/
def overlapsMask (steps : Nat) : Option Bool :=
  if range.last < range.first then some false
  else if range.coversMask address then some true
  -- The addresses straddle the beginning of the range, or its end.
  else if address.contiguous &&
      ((address.first <= range.first && range.first < address.last) ||
        (address.first < range.last && range.last <= address.last)) then some true
  else if address.last < range.first || range.last < address.first then some false
  else Iterator.anyOf (fun candidate => range.first <= candidate && candidate <= range.last) steps
    address.begin

lemma inRange_iff (candidate : BitVec 64) :
    range.inRange candidate = true ↔ range.first <= candidate ∧ candidate <= range.last := by
  rw [inRange]
  split
  next isEmpty =>
    have reversed : range.last < range.first := of_decide_eq_true isEmpty
    refine iff_of_false Bool.false_ne_true ?_
    exact fun within => absurd (Nat.le_trans within.1 within.2) (Nat.not_le_of_lt reversed)
  next => rw [and_eq_true, decide_eq_true_iff, decide_eq_true_iff]

lemma coversMask_iff : range.coversMask address = true ↔
    ∀ candidate, address.Matches candidate -> range.inRange candidate = true := by
  rw [coversMask, and_eq_true, decide_eq_true_iff, decide_eq_true_iff]
  constructor
  · intro bounds candidate matching
    exact (range.inRange_iff candidate).mpr
      ⟨Nat.le_trans bounds.1 (MaskedAddress.first_le matching),
        Nat.le_trans (MaskedAddress.le_last matching) bounds.2⟩
  · intro covers
    exact ⟨((range.inRange_iff _).mp (covers _ address.matches_first)).1,
      ((range.inRange_iff _).mp (covers _ address.matches_last)).2⟩

/-- Whether some address that matches is in the range. -/
def Overlaps : Prop :=
  ∃ candidate, address.Matches candidate ∧ range.inRange candidate = true

lemma overlaps_of_matches {candidate : BitVec 64} (matching : address.Matches candidate)
    (above : range.first <= candidate) (below : candidate <= range.last) : range.Overlaps address :=
  ⟨candidate, matching, (range.inRange_iff candidate).mpr ⟨above, below⟩⟩

lemma overlaps_of_straddles (present : range.first <= range.last)
    (contiguous : address.contiguous = true)
    (straddles : (address.first <= range.first ∧ range.first < address.last) ∨
      (address.first < range.last ∧ range.last <= address.last)) : range.Overlaps address := by
  rcases straddles with ⟨above, below⟩ | ⟨above, below⟩
  · exact range.overlaps_of_matches address
      (matches_of_contiguous contiguous above (Nat.le_of_lt below)) (Nat.le_refl _) present
  · exact range.overlaps_of_matches address
      (matches_of_contiguous contiguous (Nat.le_of_lt above) below) present (Nat.le_refl _)

lemma overlapsMask_of_enumerates (enumerates : Enumerates address.mask address.first addresses) :
    ∃ result, range.overlapsMask address (addresses.length + 1) = some result ∧
      (result = true ↔ range.Overlaps address) := by
  rw [overlapsMask]
  split
  next reversed =>
    refine ⟨false, rfl, iff_of_false Bool.false_ne_true ?_⟩
    rintro ⟨candidate, -, within⟩
    have bounds := (range.inRange_iff candidate).mp within
    exact absurd (Nat.le_trans bounds.1 bounds.2) (Nat.not_le_of_lt reversed)
  next notReversed =>
  have present : range.first <= range.last := Nat.le_of_not_lt notReversed
  split
  next covers =>
    have all := (range.coversMask_iff address).mp covers
    exact ⟨true, rfl, iff_of_true rfl ⟨_, address.matches_first, all _ address.matches_first⟩⟩
  next =>
  split
  next straddles =>
    simp only [and_eq_true, or_eq_true, decide_eq_true_eq] at straddles
    exact ⟨true, rfl,
      iff_of_true rfl (range.overlaps_of_straddles address present straddles.1 straddles.2)⟩
  next =>
  split
  next apart =>
    rw [or_eq_true, decide_eq_true_iff, decide_eq_true_iff] at apart
    refine ⟨false, rfl, iff_of_false Bool.false_ne_true ?_⟩
    rintro ⟨candidate, matching, within⟩
    have bounds := (range.inRange_iff candidate).mp within
    rcases apart with low | high
    · exact absurd (Nat.le_trans bounds.1 (MaskedAddress.le_last matching)) (Nat.not_le_of_lt low)
    · exact absurd (Nat.le_trans (MaskedAddress.first_le matching) bounds.2) (Nat.not_le_of_lt high)
  next =>
    refine ⟨_, Iterator.anyOf_of_collect _ enumerates.collected, ?_⟩
    rw [any_eq_true]
    refine exists_congr fun candidate => ?_
    rw [MaskedAddress.mem_of_enumerates enumerates, inRange_iff, and_eq_true,
      decide_eq_true_iff, decide_eq_true_iff]

/-- Both tests of a range are exact, and the loop of the second one comes to an end. -/
theorem tests_exact (range : AddressRange) (address : MaskedAddress) :
    (range.coversMask address = true ↔
      ∀ candidate, address.Matches candidate -> range.inRange candidate = true) ∧
    ∃ steps result, range.overlapsMask address steps = some result ∧
      (result = true ↔
        ∃ candidate, address.Matches candidate ∧ range.inRange candidate = true) := by
  rcases enumerates address.mask address.first with ⟨addresses, enumerates⟩
  exact ⟨range.coversMask_iff address, _, range.overlapsMask_of_enumerates address enumerates⟩

end AddressRange

end Ecclesia.Codec
