import Lvqr.Bytes
import Lvqr.Lib.BitStream
import Lvqr.Lib.Reads

set_option autoImplicit false

-- The MSB-first bit reader every codec parser works with.
namespace Lvqr.Codec

inductive CodecError where
  | endOfStream (needed remaining : Nat)
  | golombOverflow
  | malformedSps (reason : String)
  | malformedAsc (reason : String)
  | scte35Malformed (reason : String)
  | scte35BadCrc (computed wire : Nat)
deriving DecidableEq, Repr

structure BitReader where
  bytes : Bytes
  pos : Nat
deriving DecidableEq, Repr

abbrev BitRead := StateT BitReader (Except CodecError)

namespace BitReader

def new (bytes : Bytes) : BitReader := ⟨bytes, 0⟩

def bitsRemaining (reader : BitReader) : Nat := reader.bytes.length * 8 - reader.pos

def nextBit (reader : BitReader) : Nat :=
  (reader.bytes.getD (reader.pos / 8) 0).toNat >>> (7 - reader.pos % 8) &&& 1

def advance (reader : BitReader) (count : Nat) : BitReader := { reader with pos := reader.pos + count }

def readBit : BitRead Nat := fun reader =>
  if reader.bitsRemaining = 0 then .error (.endOfStream 1 0) else .ok (reader.nextBit, reader.advance 1)

def shiftIn : Nat → Nat → BitReader → Nat × BitReader
  | 0, value, reader => (value, reader)
  | count + 1, value, reader => shiftIn count (value <<< 1 ||| reader.nextBit) (reader.advance 1)

theorem shift_in_succ (count value : Nat) (reader : BitReader) :
    shiftIn (count + 1) value reader = shiftIn count (value <<< 1 ||| reader.nextBit) (reader.advance 1) := rfl

def readBits (count : Nat) : BitRead Nat := fun reader =>
  if count = 0 then .ok (0, reader)
  else if 32 < count then .error .golombOverflow
  else if reader.bitsRemaining < count then .error (.endOfStream count reader.bitsRemaining)
  else .ok (shiftIn count 0 reader)

def skipBits (count : Nat) : BitRead Unit := fun reader =>
  if reader.bitsRemaining < count then .error (.endOfStream count reader.bitsRemaining)
  else .ok ((), reader.advance count)

-- `budget` is how many more zeros may lead the code.
def leadingZeros : Nat → BitRead Nat
  | 0 => do
      let bit ← readBit
      if bit = 0 then throw .golombOverflow else pure 0
  | budget + 1 => do
      let bit ← readBit
      if bit = 0 then (· + 1) <$> leadingZeros budget else pure 0

def readUeV : BitRead Nat := do
  let zeros ← leadingZeros 32
  if zeros = 0 then pure 0
  else
    let suffix ← readBits zeros
    let total := 2 ^ zeros - 1 + suffix
    if 2 ^ 32 ≤ total then throw .golombOverflow else pure total

def asI32 (value : Int) : Int := value.bmod (2 ^ 32)

def readSeV : BitRead Int := do
  let code ← readUeV
  if code = 0 then pure 0
  else
    let magnitude := code / 2 + code % 2
    if code &&& 1 = 1 then pure (asI32 magnitude) else pure (-asI32 magnitude)

def rest (reader : BitReader) : List Bool := (BitStream.bits reader.bytes).drop reader.pos

theorem rest_length (reader : BitReader) : reader.rest.length = reader.bitsRemaining := by
  rw [rest, List.length_drop, BitStream.bits_length, bitsRemaining]

theorem rest_advance (reader : BitReader) (count : Nat) : (reader.advance count).rest = reader.rest.drop count := by
  rw [rest, rest, advance, List.drop_drop]

theorem next_bit (reader : BitReader) (bit : Bool) (tail : List Bool) (starts : reader.rest = bit :: tail) :
    reader.nextBit = bit.toNat ∧ (reader.advance 1).rest = tail := by
  have inside : reader.pos < reader.bytes.length * 8 := by
    have length := reader.rest_length
    rw [starts, List.length_cons, bitsRemaining] at length
    omega
  refine ⟨?_, by rw [rest_advance, starts, List.drop_one, List.tail_cons]⟩
  have here := BitStream.bits_getElem? reader.bytes reader.pos inside
  rw [← List.head?_drop, ← rest, starts, List.head?_cons] at here
  rw [nextBit, Option.some.inj here, Nat.toNat_testBit, Nat.and_one_is_mod, Nat.shiftRight_eq_div_pow]

theorem reads_bit (bit : Bool) : Reads rest readBit [bit] bit.toNat := by
  intro reader tail starts
  have length := reader.rest_length
  rw [starts, List.length_append, List.length_singleton] at length
  obtain ⟨value, left⟩ := reader.next_bit bit tail starts
  refine ⟨reader.advance 1, ?_, left⟩
  rw [StateT.run, readBit, if_neg (by omega), value]

theorem shift_in_spec (code : List Bool) (value : Nat) (reader : BitReader) (tail : List Bool)
    (starts : reader.rest = code ++ tail) :
    shiftIn code.length value reader =
      (code.foldl (fun number bit => number * 2 + bit.toNat) value, reader.advance code.length) := by
  induction code generalizing value reader with
  | nil => rfl
  | cons bit code ih =>
      obtain ⟨here, left⟩ := reader.next_bit bit (code ++ tail) starts
      have joined : value <<< 1 ||| bit.toNat = value * 2 + bit.toNat := by
        rw [← Nat.shiftLeft_add_eq_or_of_lt (by cases bit <;> decide), Nat.shiftLeft_eq, Nat.pow_one]
      rw [List.length_cons, shift_in_succ, here, joined, ih _ _ left, List.foldl_cons, advance, advance, advance,
        Nat.add_assoc, Nat.add_comm 1]

theorem reads_bits (code : List Bool) (fits : code.length ≤ 32) :
    Reads rest (readBits code.length) code (BitStream.value code) := by
  intro reader tail starts
  have length := reader.rest_length
  rw [starts, List.length_append] at length
  refine ⟨reader.advance code.length, ?_, by rw [rest_advance, starts, List.drop_left]⟩
  rw [StateT.run, readBits]
  split
  · rename_i empty
    rw [List.eq_nil_of_length_eq_zero empty]
    rfl
  · rw [if_neg (by omega), if_neg (by omega), reader.shift_in_spec code 0 tail starts]
    rfl

theorem read_bits_ok (count value : Nat) (reader next : BitReader) (ran : (readBits count).run reader = .ok (value, next)) :
    count ≤ reader.rest.length ∧ value = BitStream.value (reader.rest.take count) ∧ next.rest = reader.rest.drop count := by
  have length := reader.rest_length
  rw [StateT.run, readBits] at ran
  split at ran
  · rename_i empty
    obtain ⟨rfl, rfl⟩ := Prod.mk.inj (Except.ok.inj ran)
    rw [empty]
    exact ⟨Nat.zero_le _, rfl, rfl⟩
  · split at ran
    · cases ran
    · rename_i fits
      split at ran
      · cases ran
      · rename_i enough
        have size : (reader.rest.take count).length = count := List.length_take_of_le (by omega)
        have read := reads_bits (reader.rest.take count) (by omega)
        rw [size] at read
        obtain ⟨last, same, left⟩ := read reader (reader.rest.drop count) (List.take_append_drop _ _).symm
        rw [StateT.run, readBits, if_neg ‹_›, if_neg fits, if_neg enough, ran] at same
        obtain ⟨rfl, rfl⟩ := Prod.mk.inj (Except.ok.inj same)
        exact ⟨by omega, rfl, left⟩

theorem reads_skip (code : List Bool) : Reads rest (skipBits code.length) code () := by
  intro reader tail starts
  have length := reader.rest_length
  rw [starts, List.length_append] at length
  refine ⟨reader.advance code.length, ?_, by rw [rest_advance, starts, List.drop_left]⟩
  rw [StateT.run, skipBits, if_neg (by omega)]

theorem reads_leading_zeros (zeros budget : Nat) (within : zeros ≤ budget) :
    Reads rest (leadingZeros budget) (List.replicate zeros false ++ [true]) zeros := by
  induction zeros generalizing budget with
  | zero =>
      cases budget with
      | zero => exact (reads_bit true).bind (Reads.pure 0)
      | succ spare => exact (reads_bit true).bind (Reads.pure 0)
  | succ zeros ih =>
      obtain ⟨spare, rfl⟩ := Nat.exists_eq_add_of_le' within
      exact (reads_bit false).bind ((ih (spare + zeros) (Nat.le_add_left zeros spare)).map (· + 1))

theorem leading_zeros_overflow (budget : Nat) (reader : BitReader) (tail : List Bool)
    (starts : reader.rest = List.replicate (budget + 1) false ++ tail) :
    (leadingZeros budget).run reader = .error .golombOverflow := by
  induction budget generalizing reader with
  | zero =>
      obtain ⟨next, ran, _⟩ := reads_bit false reader tail starts
      rw [leadingZeros, StateT.run_bind, ran]
      rfl
  | succ budget ih =>
      obtain ⟨next, ran, left⟩ := reads_bit false reader (List.replicate (budget + 1) false ++ tail) starts
      have later := ih next left
      rw [leadingZeros, StateT.run_bind, ran]
      change ((· + 1) <$> leadingZeros budget).run next = .error .golombOverflow
      rw [StateT.run_map, later]
      rfl

-- Past the marking bit the code holds the rest of the number's successor.
theorem reaches_golomb (number : Nat) (fits : Nat.log2 (number + 1) ≤ 32) (positive : 0 < number) :
    Reaches rest readUeV (if 2 ^ 32 ≤ number then throw .golombOverflow else pure number) (BitStream.golomb number) := by
  have low := Nat.log2_self_le (Nat.add_one_ne_zero number)
  have high := Nat.lt_log2_self (n := number + 1)
  have some : Nat.log2 (number + 1) ≠ 0 := by
    intro none
    rw [none] at high
    omega
  rw [BitStream.golomb]
  generalize Nat.log2 (number + 1) = width at low high fits some
  have suffix : number + 1 = 2 ^ width + (number + 1) % 2 ^ width := by
    have whole : (number + 1) / 2 ^ width = 1 := by
      rw [Nat.pow_succ] at high
      exact Nat.div_eq_of_lt_le (by omega) (by omega)
    have split := Nat.div_add_mod (number + 1) (2 ^ width)
    rw [whole, Nat.mul_one] at split
    exact split.symm
  have bits := reads_bits (BitStream.fixed width (number + 1)) (by rw [BitStream.fixed_length]; exact fits)
  rw [BitStream.fixed_length, BitStream.value_fixed_mod] at bits
  have total : 2 ^ width - 1 + (number + 1) % 2 ^ width = number := by omega
  rw [readUeV, List.append_cons]
  refine (reads_leading_zeros width 32 fits).bind_reaches ?_
  rw [if_neg some]
  have reaches := bits.reaches fun suffix =>
    let total := 2 ^ width - 1 + suffix
    if 2 ^ 32 ≤ total then throw .golombOverflow else pure total
  simp only [total] at reaches
  exact reaches

theorem log_two_le (number width : Nat) (fits : number + 1 < 2 ^ (width + 1)) : Nat.log2 (number + 1) ≤ width :=
  Nat.le_of_lt_succ ((Nat.log2_lt (Nat.add_one_ne_zero number)).mpr fits)

theorem reads_golomb (number : Nat) (fits : number < 2 ^ 32) :
    Reads rest readUeV (BitStream.golomb number) number := by
  rcases Nat.eq_zero_or_pos number with rfl | positive
  · exact (reads_leading_zeros 0 32 (Nat.zero_le 32)).bind (Reads.pure 0)
  · have reaches := reaches_golomb number (log_two_le number 32 (by omega)) positive
    rw [if_neg (by omega)] at reaches
    rw [← List.append_nil (BitStream.golomb number)]
    exact reaches.reads (Reads.pure number)

theorem golomb_overflows (number : Nat) (large : 2 ^ 32 ≤ number) (reader : BitReader) (tail : List Bool)
    (starts : reader.rest = BitStream.golomb number ++ tail) : readUeV.run reader = .error .golombOverflow := by
  by_cases short : Nat.log2 (number + 1) ≤ 32
  · obtain ⟨next, ran, _⟩ := reaches_golomb number short (by omega) reader tail starts
    rw [ran, if_pos large]
    rfl
  · obtain ⟨more, wide⟩ := Nat.exists_eq_add_of_lt (Nat.not_le.mp short)
    rw [BitStream.golomb, wide, Nat.add_right_comm, List.replicate_add, List.append_assoc, List.append_assoc] at starts
    have overflow := leading_zeros_overflow 32 reader _ starts
    rw [readUeV, StateT.run_bind, overflow]
    rfl

end BitReader

end Lvqr.Codec

-- What the exponential Golomb readers make of every code, also of those whose
-- number does not fit the type.
namespace Lvqr.Codec

open BitReader

structure GolombExact (reader : BitReader) (number : Nat) (tail : List Bool) : Prop where
  unsigned : number < 2 ^ 32 → ∃ next, readUeV.run reader = .ok (number, next) ∧ next.rest = tail
  overflow : 2 ^ 32 ≤ number → readUeV.run reader = .error .golombOverflow
  signed : ∀ value next, readSeV.run reader = .ok (value, next) → value = BitStream.signed number

-- The magnitude as `read_se_v` casts it, with the sign the lowest bit says.
def castSigned (number : Nat) : Int :=
  if number = 0 then 0
  else if number &&& 1 = 1 then asI32 (number / 2 + number % 2 : Nat) else -asI32 (number / 2 + number % 2 : Nat)

theorem as_i32_small (value : Nat) (small : value < 2 ^ 31) : asI32 value = value := by
  refine Int.bmod_eq_of_le ?_ ?_
  · omega
  · omega

theorem cast_signed_exact (number : Nat) (small : number < 2 ^ 32 - 1) : castSigned number = BitStream.signed number := by
  rw [castSigned, BitStream.signed, as_i32_small _ (by omega), Nat.and_one_is_mod]
  split
  · simp_all
  · split
    · omega
    · omega

-- The magnitude 2 ^ 31 of the last code has no positive i32.
theorem cast_signed_last : castSigned (2 ^ 32 - 1) ≠ BitStream.signed (2 ^ 32 - 1) := by decide

theorem read_se_v_run (reader next : BitReader) (number : Nat) (ran : readUeV.run reader = .ok (number, next)) :
    readSeV.run reader = .ok (castSigned number, next) := by
  rw [readSeV, StateT.run_bind, ran, castSigned]
  change StateT.run (if number = 0 then pure 0 else
    if number &&& 1 = 1 then pure (asI32 (number / 2 + number % 2 : Nat))
    else pure (-asI32 (number / 2 + number % 2 : Nat))) next = _
  split
  · rfl
  · split
    · rfl
    · rfl

theorem read_se_v_error (reader : BitReader) (error : CodecError) (ran : readUeV.run reader = .error error) :
    readSeV.run reader = .error error := by
  rw [readSeV, StateT.run_bind, ran]
  rfl

theorem golomb_exact_iff (number : Nat) (reader : BitReader) (tail : List Bool)
    (starts : reader.rest = BitStream.golomb number ++ tail) :
    GolombExact reader number tail ↔ number ≠ 2 ^ 32 - 1 := by
  by_cases large : 2 ^ 32 ≤ number
  · have ran := golomb_overflows number large reader tail starts
    refine iff_of_true ⟨fun small => absurd small (Nat.not_lt.mpr large), fun _ => ran, ?_⟩ (by omega)
    intro value next read
    rw [read_se_v_error reader _ ran] at read
    cases read
  · have small : number < 2 ^ 32 := Nat.not_le.mp large
    obtain ⟨next, ran, left⟩ := reads_golomb number small reader tail starts
    have read := read_se_v_run reader next number ran
    constructor
    · intro exact last
      have value := exact.signed _ next read
      rw [last] at value
      exact cast_signed_last value
    · intro notLast
      refine ⟨fun _ => ⟨next, ran, left⟩, fun high => absurd high large, ?_⟩
      intro value after found
      rw [read] at found
      cases found
      exact cast_signed_exact number (by omega)

theorem golomb_exact_five : GolombExact (.new [0x30]) 5 [false, false, false] :=
  (golomb_exact_iff 5 (.new [0x30]) [false, false, false] (by decide)).mpr (by decide)

-- Thirty-two zeros, the one and a suffix of zeros.
def lastCode : Bytes := [0, 0, 0, 0, 0x80, 0, 0, 0, 0]

theorem last_code_negated : ¬ ∀ (number : Nat) (reader : BitReader) (tail : List Bool),
    reader.rest = BitStream.golomb number ++ tail → GolombExact reader number tail := by
  intro always
  have exact := always (2 ^ 32 - 1) (.new lastCode) (List.replicate 7 false) (by decide)
  have read : readSeV.run (.new lastCode) = .ok (-2147483648, ⟨lastCode, 65⟩) := by decide +kernel
  have value := exact.signed _ _ read
  revert value
  decide

end Lvqr.Codec

namespace Lvqr.Codec

open BitReader

def rbspFromEbsp : Bytes → Bytes
  | 0 :: 0 :: 3 :: rest => 0 :: 0 :: rbspFromEbsp rest
  | byte :: rest => byte :: rbspFromEbsp rest
  | [] => []

structure HevcSps where
  generalProfileSpace : Nat
  generalTierFlag : Bool
  generalProfileIdc : Nat
  generalProfileCompatibilityFlags : Nat
  generalLevelIdc : Nat
  chromaFormatIdc : Nat
  picWidthInLumaSamples : Nat
  picHeightInLumaSamples : Nat
deriving DecidableEq, Repr

structure PtlGeneral where
  generalProfileSpace : Nat
  generalTierFlag : Bool
  generalProfileIdc : Nat
  generalProfileCompatibilityFlags : Nat
  generalLevelIdc : Nat
deriving DecidableEq, Repr

def parsePtlGeneral : BitRead PtlGeneral := do
  let generalProfileSpace ← readBits 2
  let generalTierFlag ← readBit
  let generalProfileIdc ← readBits 5
  let generalProfileCompatibilityFlags ← readBits 32
  let _progressive ← readBit
  let _interlaced ← readBit
  let _nonPacked ← readBit
  let _frameOnly ← readBit
  skipBits 44
  let generalLevelIdc ← readBits 8
  pure {
    generalProfileSpace
    generalTierFlag := generalTierFlag == 1
    generalProfileIdc
    generalProfileCompatibilityFlags
    generalLevelIdc
  }

-- For each sub-layer whether its profile and whether its level is present.
def readPresence : Nat → BitRead (List (Bool × Bool))
  | 0 => pure []
  | count + 1 => do
      let profile ← readBit
      let level ← readBit
      let rest ← readPresence count
      pure ((profile == 1, level == 1) :: rest)

def skipPresent : List (Bool × Bool) → BitRead Unit
  | [] => pure ()
  | (profile, level) :: rest => do
      (if profile then skipBits 88 else pure ())
      (if level then skipBits 8 else pure ())
      skipPresent rest

def parsePtlSublayers (maxSubLayersMinus1 : Nat) : BitRead Unit :=
  if maxSubLayersMinus1 = 0 then pure ()
  else do
    let present ← readPresence maxSubLayersMinus1
    skipBits (2 * (8 - maxSubLayersMinus1))
    skipPresent present

-- What `parse_sps` reads behind the general part of profile_tier_level.
def parseSpsTail (maxSubLayersMinus1 : Nat) (sps : PtlGeneral) : BitRead HevcSps := do
  parsePtlSublayers maxSubLayersMinus1
  let _spsId ← readUeV
  let chromaFormatIdc ← readUeV
  if 3 < chromaFormatIdc then throw (.malformedSps "chroma_format_idc > 3")
  else
    let _separateColourPlane ← (if chromaFormatIdc = 3 then readBit else pure 0)
    let picWidthInLumaSamples ← readUeV
    let picHeightInLumaSamples ← readUeV
    if picWidthInLumaSamples = 0 ∨ picHeightInLumaSamples = 0 ∨ 16384 < picWidthInLumaSamples ∨
        16384 < picHeightInLumaSamples then
      throw (.malformedSps "implausible SPS dimensions")
    else
      pure {
        generalProfileSpace := sps.generalProfileSpace
        generalTierFlag := sps.generalTierFlag
        generalProfileIdc := sps.generalProfileIdc
        generalProfileCompatibilityFlags := sps.generalProfileCompatibilityFlags
        generalLevelIdc := sps.generalLevelIdc
        chromaFormatIdc
        picWidthInLumaSamples
        picHeightInLumaSamples
      }

def readSps : BitRead HevcSps := do
  let _vpsId ← readBits 4
  let maxSubLayersMinus1 ← readBits 3
  if 6 < maxSubLayersMinus1 then throw (.malformedSps "sps_max_sub_layers_minus1 > 6")
  else
    let _tidNesting ← readBit
    let sps ← parsePtlGeneral
    parseSpsTail maxSubLayersMinus1 sps

def parseSps (payload : Bytes) : Except CodecError HevcSps :=
  (readSps.run (BitReader.new (rbspFromEbsp payload))).map Prod.fst

example : parseSps [] = .error (.endOfStream 4 0) := by decide

end Lvqr.Codec
