import Mathlib.Data.BitVec
import Mathlib.Data.Nat.Digits.Defs

namespace Ecclesia.Codec

open List

/-!
# Packed text

Four characters of six bits are packed in three bytes, with the first one in the lowest bits.  The
decoder reads the bytes in groups of three and what is left of the last group.

The definitions follow `text.cc` and `ExtractBits` of `bits.h`.
-/

/-- The lowest digits of a number in a base. -/
def lowDigits (base : Nat) : Nat -> Nat -> List Nat
  | 0, _ => []
  | count + 1, value => value % base :: lowDigits base count (value / base)

section

variable {base : Nat}

lemma length_lowDigits (count value : Nat) : (lowDigits base count value).length = count := by
  induction count generalizing value with
  | zero => rfl
  | succ count ih => rw [lowDigits, length_cons, ih]

lemma lowDigits_getElem? {count i : Nat} (value : Nat) (within : i < count) :
    (lowDigits base count value)[i]? = some (value / base ^ i % base) := by
  induction count generalizing value i with
  | zero => cases within
  | succ count ih =>
    rw [lowDigits]
    cases i with
    | zero => rw [getElem?_cons_zero, pow_zero, Nat.div_one]
    | succ i =>
      rw [getElem?_cons_succ, ih _ (Nat.lt_of_succ_lt_succ within), Nat.div_div_eq_div_mul,
        pow_succ']

lemma ofDigits_lowDigits (count value : Nat) :
    Nat.ofDigits base (lowDigits base count value) = value % base ^ count := by
  induction count generalizing value with
  | zero => rw [lowDigits, Nat.ofDigits_nil, pow_zero, Nat.mod_one]
  | succ count ih => rw [lowDigits, Nat.ofDigits_cons, ih, pow_succ', Nat.mod_mul]

lemma lowDigits_ofDigits (positive : 0 < base) (more : Nat) {digits : List Nat}
    (small : ∀ digit ∈ digits, digit < base) :
    lowDigits base (digits.length + more) (Nat.ofDigits base digits) =
      digits ++ replicate more 0 := by
  induction digits with
  | nil =>
    rw [length_nil, Nat.zero_add, Nat.ofDigits_nil, nil_append]
    induction more with
    | zero => rfl
    | succ more ih => rw [lowDigits, Nat.zero_mod, Nat.zero_div, ih, replicate_succ]
  | cons digit rest ih =>
    have bound := small digit (.head _)
    rw [length_cons, Nat.add_right_comm, lowDigits, Nat.ofDigits_cons,
      Nat.add_mul_mod_self_left, Nat.mod_eq_of_lt bound, Nat.add_mul_div_left _ _ positive,
      Nat.div_eq_of_lt bound, Nat.zero_add, cons_append,
      ih fun other member => small other (.tail _ member)]

end

/-- `ExtractBits` -/
def extractBits {width : Nat} (value : BitVec width) (hi lo : Nat) : BitVec width :=
  if hi < lo then 0
  else
    let shifted := if lo < width then value >>> lo else 0
    let mask := if hi - lo + 1 < width then BitVec.ofNat width 1 <<< (hi - lo + 1) else 0
    shifted &&& (mask - 1)

def character (buf : BitVec 32) (lo : Nat) : BitVec 8 :=
  (0x20#32 + extractBits buf (lo + 5) lo).setWidth 8

/-- The loop of `ParseSixBitAscii` with what it has in the buffer, and the rest behind it. -/
def parseGroups (buf : BitVec 32) (idx : Nat) : List (BitVec 8) -> List (BitVec 8)
  | [] => (List.range idx).map fun i => character buf (6 * i)
  | byte :: rest =>
    let buf := buf ||| (byte.setWidth 32 <<< (idx * 8))
    if idx + 1 = 3 then
      character buf 0 :: character buf 6 :: character buf 12 :: character buf 18 ::
        parseGroups 0 0 rest
    else parseGroups buf (idx + 1) rest

/-- `ParseSixBitAscii` -/
def parseSixBitAscii (bytes : List (BitVec 8)) : List (BitVec 8) :=
  parseGroups 0 0 bytes

/-- The bytes as one number, with the first byte in the lowest bits. -/
def littleEndian (bytes : List (BitVec 8)) : Nat :=
  Nat.ofDigits 256 (bytes.map BitVec.toNat)

/-- The character of a code. -/
def ofCode (code : Nat) : BitVec 8 := BitVec.ofNat 8 (0x20 + code)

lemma character_eq (buf : BitVec 32) {lo : Nat} (low : lo <= 18) :
    character buf lo = ofCode (buf.toNat / 2 ^ lo % 64) := by
  have mask : (1#32 <<< 6 - 1#32).toNat = 2 ^ 6 - 1 := rfl
  have bits : (extractBits buf (lo + 5) lo).toNat = buf.toNat / 2 ^ lo % 64 := by
    have width : lo + 5 - lo + 1 = 6 := by omega
    rw [extractBits, if_neg (by omega), width, if_pos (by omega)]
    rw [BitVec.toNat_and, BitVec.toNat_ushiftRight, Nat.shiftRight_eq_div_pow]
    exact (congrArg _ mask).trans (Nat.and_two_pow_sub_one_eq_mod _ 6)
  apply BitVec.eq_of_toNat_eq
  change (0x20 + _) % 2 ^ 32 % 2 ^ 8 = (0x20 + _) % 2 ^ 8
  omega

lemma shifted_toNat (byte : BitVec 8) {idx : Nat} (low : idx < 3) :
    (byte.setWidth 32 <<< (idx * 8)).toNat = byte.toNat * 256 ^ idx := by
  have bound := byte.isLt
  have power : 256 ^ idx <= 65536 := Nat.pow_le_pow_right (by decide) (Nat.le_of_lt_succ low)
  have same : 2 ^ (idx * 8) = 256 ^ idx := by rw [Nat.mul_comm, Nat.pow_mul]
  have fits : byte.toNat * 256 ^ idx < 2 ^ 32 := by
    calc byte.toNat * 256 ^ idx <= 255 * 65536 := Nat.mul_le_mul (by omega) power
      _ < 2 ^ 32 := by decide
  rw [BitVec.toNat_shiftLeft, BitVec.toNat_setWidth, Nat.shiftLeft_eq, same,
    Nat.mod_eq_of_lt (Nat.lt_trans bound (by decide)), Nat.mod_eq_of_lt fits]

/-- A byte is put behind those in the buffer. -/
lemma buffered_toNat {buf : BitVec 32} (byte : BitVec 8) {idx : Nat} (low : idx < 3)
    (filled : buf.toNat < 256 ^ idx) :
    (buf ||| (byte.setWidth 32 <<< (idx * 8))).toNat = buf.toNat + byte.toNat * 256 ^ idx := by
  have same : 256 ^ idx = 2 ^ (8 * idx) := (Nat.pow_mul 2 8 idx).symm
  rw [BitVec.toNat_or, shifted_toNat byte low, Nat.or_comm, same, <- Nat.shiftLeft_eq,
    <- Nat.shiftLeft_add_eq_or_of_lt (same ▸ filled), Nat.add_comm]

/-- The characters of a whole number of bits. -/
def sixBitCharacters (count value : Nat) : List (BitVec 8) :=
  (lowDigits 64 count value).map ofCode

/-- What is left in the buffer gives one character for each byte. -/
lemma leftover_eq (buf : BitVec 32) {idx : Nat} (low : idx < 3) :
    (List.range idx).map (fun i => character buf (6 * i)) = sixBitCharacters idx buf.toNat := by
  have power : ∀ i, 2 ^ (6 * i) = 64 ^ i := fun i => Nat.pow_mul 2 6 i
  apply ext_getElem?
  intro i
  rw [sixBitCharacters, getElem?_map, getElem?_map]
  by_cases within : i < idx
  · rw [getElem?_range within, lowDigits_getElem? _ within, Option.map_some, Option.map_some,
      character_eq buf (by omega), power]
  · rw [getElem?_eq_none (by rw [length_range]; omega),
      getElem?_eq_none (by rw [length_lowDigits]; omega)]
    rfl

lemma group_eq (buf : BitVec 32) {value : Nat} (count : Nat) (filled : buf.toNat < 256 ^ 3) :
    character buf 0 :: character buf 6 :: character buf 12 :: character buf 18 ::
        sixBitCharacters count value =
      sixBitCharacters (count + 4) (buf.toNat + 256 ^ 3 * value) := by
  rw [character_eq buf (by decide), character_eq buf (by decide), character_eq buf (by decide),
    character_eq buf (by decide)]
  have rest : (buf.toNat + 256 ^ 3 * value) / 64 / 64 / 64 / 64 = value := by omega
  have second : (buf.toNat + 256 ^ 3 * value) / 64 % 64 = buf.toNat / 2 ^ 6 % 64 := by omega
  have third : (buf.toNat + 256 ^ 3 * value) / 64 / 64 % 64 = buf.toNat / 2 ^ 12 % 64 := by omega
  have fourth : (buf.toNat + 256 ^ 3 * value) / 64 / 64 / 64 % 64 = buf.toNat / 2 ^ 18 % 64 := by
    omega
  have first : (buf.toNat + 256 ^ 3 * value) % 64 = buf.toNat / 2 ^ 0 % 64 := by omega
  simp only [sixBitCharacters, lowDigits, map_cons, rest, first, second, third, fourth]

lemma empty_buffer (value : Nat) : (0 : BitVec 32).toNat + 256 ^ 0 * value = value := by
  rw [pow_zero, Nat.one_mul]
  exact Nat.zero_add value

/-- The loop, from what is in the buffer on. -/
lemma parseGroups_eq (buf : BitVec 32) {idx : Nat} (bytes : List (BitVec 8)) (low : idx < 3)
    (filled : buf.toNat < 256 ^ idx) :
    parseGroups buf idx bytes = sixBitCharacters (4 * (bytes.length + idx) / 3)
      (buf.toNat + 256 ^ idx * littleEndian bytes) := by
  induction bytes generalizing buf idx with
  | nil =>
    have count : 4 * (0 + idx) / 3 = idx := by omega
    rw [parseGroups, leftover_eq buf low, length_nil, count]
    rfl
  | cons byte rest ih =>
    have buffered := buffered_toNat byte low filled
    have whole : littleEndian (byte :: rest) = byte.toNat + 256 * littleEndian rest := rfl
    have more : (buf ||| (byte.setWidth 32 <<< (idx * 8))).toNat < 256 ^ (idx + 1) := by
      have last : byte.toNat * 256 ^ idx <= 255 * 256 ^ idx := Nat.mul_le_mul_right _ (by omega)
      omega
    have sum : buf.toNat + 256 ^ idx * littleEndian (byte :: rest) =
        (buf ||| (byte.setWidth 32 <<< (idx * 8))).toNat + 256 ^ (idx + 1) * littleEndian rest := by
      rw [buffered, whole]
      ring
    rw [parseGroups, sum]
    split
    next full =>
      obtain rfl : idx = 2 := by omega
      have count : 4 * ((byte :: rest).length + 2) / 3 = 4 * (rest.length + 0) / 3 + 4 := by
        rw [length_cons]
        omega
      rw [ih 0 (by decide) (by decide), group_eq _ _ more, count]
      rw [empty_buffer]
    next notFull =>
      rw [ih _ (by omega) more, length_cons, Nat.add_right_comm, Nat.add_assoc]

def packedNumber (codes : List (BitVec 6)) : Nat :=
  Nat.ofDigits 64 (codes.map BitVec.toNat)

/-- As many bytes as the bits need. -/
def packSixBitAscii (codes : List (BitVec 6)) : List (BitVec 8) :=
  (lowDigits 256 ((6 * codes.length + 7) / 8) (packedNumber codes)).map (BitVec.ofNat 8)

lemma length_packSixBitAscii (codes : List (BitVec 6)) :
    (packSixBitAscii codes).length = (6 * codes.length + 7) / 8 := by
  rw [packSixBitAscii, length_map, length_lowDigits]

lemma codes_small (codes : List (BitVec 6)) : ∀ digit ∈ codes.map BitVec.toNat, digit < 64 := by
  intro digit member
  rcases mem_map.mp member with ⟨code, -, rfl⟩
  exact code.isLt

lemma lowDigits_small {base : Nat} (positive : 0 < base) (count value : Nat) :
    ∀ digit ∈ lowDigits base count value, digit < base := by
  induction count generalizing value with
  | zero => exact forall_mem_nil _
  | succ count ih =>
    intro digit member
    rcases mem_cons.mp member with rfl | later
    · exact Nat.mod_lt _ positive
    · exact ih _ digit later

lemma littleEndian_packSixBitAscii (codes : List (BitVec 6)) :
    littleEndian (packSixBitAscii codes) = packedNumber codes := by
  have bytes : (packSixBitAscii codes).map BitVec.toNat =
      lowDigits 256 ((6 * codes.length + 7) / 8) (packedNumber codes) := by
    rw [packSixBitAscii, map_map]
    refine (map_congr_left fun digit member => ?_).trans (map_id _)
    exact Nat.mod_eq_of_lt (lowDigits_small (by decide) _ _ digit member)
  have bound : packedNumber codes < 256 ^ ((6 * codes.length + 7) / 8) := by
    have value := Nat.ofDigits_lt_base_pow_length (by decide) (codes_small codes)
    rw [length_map] at value
    refine Nat.lt_of_lt_of_le value ?_
    have small : 64 ^ codes.length = 2 ^ (6 * codes.length) := (Nat.pow_mul 2 6 _).symm
    have large : 256 ^ ((6 * codes.length + 7) / 8) = 2 ^ (8 * ((6 * codes.length + 7) / 8)) :=
      (Nat.pow_mul 2 8 _).symm
    rw [small, large]
    exact Nat.pow_le_pow_right (by decide) (by omega)
  rw [littleEndian, bytes, ofDigits_lowDigits, Nat.mod_eq_of_lt bound]

lemma parseSixBitAscii_eq (bytes : List (BitVec 8)) :
    parseSixBitAscii bytes = sixBitCharacters (4 * bytes.length / 3) (littleEndian bytes) := by
  rw [parseSixBitAscii, parseGroups_eq 0 bytes (by decide) (by decide), empty_buffer, Nat.add_zero]

/-- The decoder reads the bits of the bytes, and recovers the codes of a packing up to one zero. -/
theorem parseSixBitAscii_reads :
    (∀ bytes : List (BitVec 8), (parseSixBitAscii bytes).length = 4 * bytes.length / 3 ∧
      ∀ i : Fin (4 * bytes.length / 3), (parseSixBitAscii bytes)[i.val]? =
        some (BitVec.ofNat 8 (0x20 + (littleEndian bytes >>> (6 * i.val)) % 64))) ∧
    ∀ codes : List (BitVec 6), ∃ padding, padding <= 1 ∧
      parseSixBitAscii (packSixBitAscii codes) =
        (codes.map BitVec.toNat ++ List.replicate padding 0).map ofCode := by
  constructor
  · intro bytes
    rw [parseSixBitAscii_eq]
    constructor
    · rw [sixBitCharacters, List.length_map, length_lowDigits]
    · intro i
      have power : 2 ^ (6 * i.val) = 64 ^ i.val := Nat.pow_mul 2 6 i
      rw [sixBitCharacters, List.getElem?_map, lowDigits_getElem? _ i.isLt, Option.map_some, ofCode,
        Nat.shiftRight_eq_div_pow, power]
  · intro codes
    have count : 4 * (packSixBitAscii codes).length / 3 = (codes.map BitVec.toNat).length +
        (4 * ((6 * codes.length + 7) / 8) / 3 - codes.length) := by
      rw [length_packSixBitAscii, List.length_map]
      omega
    refine ⟨4 * ((6 * codes.length + 7) / 8) / 3 - codes.length, by omega, ?_⟩
    rw [parseSixBitAscii_eq, littleEndian_packSixBitAscii, count, sixBitCharacters, packedNumber,
      lowDigits_ofDigits (by decide) _ (codes_small codes)]

end Ecclesia.Codec
