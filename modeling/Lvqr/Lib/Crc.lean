import Lvqr.Lib.BitStream
import Mathlib.Data.List.GetD
import Mathlib.Logic.Function.Iterate

set_option autoImplicit false

-- A cyclic redundancy check as a register that takes one bit at a time, the bits
-- with the highest order first.
namespace Crc

variable {width : Nat} (polynomial : BitVec width)

def shift (register : BitVec width) : BitVec width :=
  if register.msb then (register <<< 1) ^^^ polynomial else register <<< 1

def top (bit : Bool) : BitVec width := if bit then BitVec.twoPow width (width - 1) else (BitVec.ofNat width 0)

def feed (register : BitVec width) (bit : Bool) : BitVec width := shift polynomial (register ^^^ top bit)

def run (register : BitVec width) (bits : List Bool) : BitVec width := bits.foldl (feed polynomial) register

-- Bits that fit the register, set into it from its top downwards.
def word : List Bool → BitVec width
  | [] => (BitVec.ofNat width 0)
  | bit :: rest => top bit ^^^ (word rest >>> 1)

theorem run_nil (register : BitVec width) : run polynomial register [] = register := rfl

theorem run_cons (register : BitVec width) (bit : Bool) (bits : List Bool) :
    run polynomial register (bit :: bits) = run polynomial (feed polynomial register bit) bits := rfl

theorem run_append (register : BitVec width) (front rest : List Bool) :
    run polynomial register (front ++ rest) = run polynomial (run polynomial register front) rest :=
  List.foldl_append

theorem shift_xor (left right : BitVec width) :
    shift polynomial (left ^^^ right) = shift polynomial left ^^^ shift polynomial right := by
  simp only [shift, BitVec.msb_xor, BitVec.shiftLeft_xor_distrib]
  cases left.msb
  · cases right.msb
    · rfl
    · simp [BitVec.xor_assoc]
  · cases right.msb
    · simp [BitVec.xor_assoc, BitVec.xor_comm polynomial]
    · have cancel : polynomial ^^^ (right <<< 1 ^^^ polynomial) = right <<< 1 := by
        rw [BitVec.xor_comm, BitVec.xor_assoc, BitVec.xor_self, BitVec.xor_zero]
      simp [BitVec.xor_assoc, cancel]

theorem shift_zero : shift polynomial (BitVec.ofNat width 0) = (BitVec.ofNat width 0) := by
  simp [shift]

theorem iterate_shift_zero (count : Nat) : (shift polynomial)^[count] (BitVec.ofNat width 0) = (BitVec.ofNat width 0) :=
  Function.iterate_fixed (shift_zero polynomial) count

-- The polynomial's last bit tells whether a bit was shifted out.
theorem eq_zero_of_shift (odd : polynomial.getLsbD 0 = true) (register : BitVec width)
    (shifted : shift polynomial register = (BitVec.ofNat width 0)) : register = (BitVec.ofNat width 0) := by
  have out : register.msb = false := by
    by_contra carried
    rw [Bool.not_eq_false] at carried
    have last := congrArg (fun word => word.getLsbD 0) shifted
    simp [shift, carried, odd] at last
  rw [shift, out] at shifted
  apply BitVec.eq_of_getLsbD_eq
  intro i inside
  by_cases highest : i + 1 < width
  · have moved := congrArg (fun word => word.getLsbD (i + 1)) shifted
    simpa [highest, BitVec.getLsbD_eq_getElem inside] using moved
  · have top : i = width - 1 := by omega
    rw [BitVec.msb_eq_getLsbD_last] at out
    simpa [top] using out

theorem eq_zero_of_iterate (odd : polynomial.getLsbD 0 = true) (count : Nat) (register : BitVec width)
    (shifted : (shift polynomial)^[count] register = (BitVec.ofNat width 0)) : register = (BitVec.ofNat width 0) := by
  induction count with
  | zero => exact shifted
  | succ count ih =>
      rw [Function.iterate_succ_apply'] at shifted
      exact ih (eq_zero_of_shift polynomial odd _ shifted)

theorem top_xor (left right : Bool) : (top (left ^^ right) : BitVec width) = top left ^^^ top right := by
  cases left
  · cases right
    · simp [top]
    · simp [top]
  · cases right
    · simp [top]
    · simp [top]

theorem feed_xor (left right : BitVec width) (bit other : Bool) :
    feed polynomial (left ^^^ right) (bit ^^ other) = feed polynomial left bit ^^^ feed polynomial right other := by
  rw [feed, top_xor, feed, feed, ← shift_xor]
  congr 1
  ac_rfl

-- Registers and streams add up without carries.
theorem run_xor (left right : List Bool) (same : left.length = right.length) (register other : BitVec width) :
    run polynomial (register ^^^ other) (List.zipWith (· ^^ ·) left right) =
      run polynomial register left ^^^ run polynomial other right := by
  induction left generalizing right register other with
  | nil =>
      rw [List.length_nil] at same
      rw [List.length_eq_zero_iff.mp same.symm]
      rfl
  | cons bit left ih =>
      cases right with
      | nil => cases same
      | cons opposite right =>
          rw [List.zipWith_cons_cons, run_cons, run_cons, run_cons, feed_xor]
          exact ih right (Nat.succ.inj same) _ _

theorem run_zeros (register : BitVec width) (count : Nat) :
    run polynomial register (List.replicate count false) = (shift polynomial)^[count] register := by
  induction count generalizing register with
  | zero => rfl
  | succ count ih =>
      have fed : feed polynomial register false = shift polynomial register := by
        rw [feed, top, if_neg Bool.false_ne_true, BitVec.xor_zero]
      rw [List.replicate_succ, run_cons, fed, ih, Function.iterate_succ_apply]

theorem word_bit (bits : List Bool) (i : Nat) (inside : i < width) :
    (word bits : BitVec width).getLsbD i = bits.getD (width - 1 - i) false := by
  induction bits generalizing i with
  | nil => simp [word]
  | cons bit rest ih =>
      have head : (top bit : BitVec width).getLsbD i = (bit && decide (i = width - 1)) := by
        cases bit
        · simp [top]
        · simp only [top, if_true, BitVec.getLsbD_twoPow, Bool.true_and]
          have low : width - 1 < width := by omega
          simp [low, eq_comm]
      rw [word, BitVec.getLsbD_xor, head, BitVec.getLsbD_ushiftRight]
      by_cases highest : i = width - 1
      · have past : (word rest : BitVec width).getLsbD (1 + i) = false := BitVec.getLsbD_of_ge _ _ (by omega)
        rw [past, highest, Nat.sub_self, List.getD_cons_zero]
        simp
      · have below : width - 1 - i = width - 1 - (1 + i) + 1 := by omega
        rw [ih (1 + i) (by omega), below, List.getD_cons_succ]
        simp [highest]

theorem word_value (bits : List Bool) (full : bits.length = width) :
    (word bits : BitVec width).toNat = BitStream.value bits := by
  have small : BitStream.value bits < 2 ^ width := by
    rw [← full]
    exact BitStream.value_lt bits
  have same : (word bits : BitVec width) = BitVec.ofNat width (BitStream.value bits) := by
    apply BitVec.eq_of_getLsbD_eq
    intro i inside
    rw [word_bit bits i inside, BitVec.getLsbD_ofNat, BitStream.value_bit bits i (by omega), full]
    simp [inside]
  rw [same, BitVec.toNat_ofNat, Nat.mod_eq_of_lt small]

theorem shift_word (rest : List Bool) (short : rest.length < width) :
    shift polynomial ((word rest : BitVec width) >>> 1) = word rest := by
  have out : ((word rest : BitVec width) >>> 1).msb = false := by
    rw [BitVec.msb_eq_getLsbD_last, BitVec.getLsbD_ushiftRight]
    exact BitVec.getLsbD_of_ge _ _ (by omega)
  rw [shift, out, if_neg Bool.false_ne_true]
  apply BitVec.eq_of_getLsbD_eq
  intro i inside
  cases i with
  | zero =>
      rw [word_bit rest 0 inside, List.getD_eq_default _ _ (by omega)]
      simp
  | succ i =>
      have back : 1 + i = i + 1 := Nat.add_comm 1 i
      simp [inside, back]

theorem run_word (bits : List Bool) (short : bits.length ≤ width) (register : BitVec width) :
    run polynomial register bits = (shift polynomial)^[bits.length] (register ^^^ word bits) := by
  induction bits generalizing register with
  | nil => simp [run, word]
  | cons bit rest ih =>
      rw [List.length_cons] at short
      rw [run_cons, ih (by omega), feed, List.length_cons, Function.iterate_succ_apply, word, ← BitVec.xor_assoc,
        shift_xor polynomial (register ^^^ top bit), shift_word polynomial rest (by omega)]

-- After as many bits as it is wide, the register is zero if they are what it held.
theorem run_eq_zero_iff (odd : polynomial.getLsbD 0 = true) (register : BitVec width) (bits : List Bool)
    (short : bits.length ≤ width) : run polynomial register bits = (BitVec.ofNat width 0) ↔ register = word bits := by
  rw [run_word polynomial bits short]
  constructor
  · intro zero
    exact BitVec.xor_eq_zero_iff.mp (eq_zero_of_iterate polynomial odd _ _ zero)
  · intro same
    rw [same, BitVec.xor_self, iterate_shift_zero]

theorem all_false_of_word (bits : List Bool) (short : bits.length ≤ width) (zero : (word bits : BitVec width) = (BitVec.ofNat width 0)) :
    true ∉ bits := by
  intro known
  obtain ⟨i, inside, at_i⟩ := List.mem_iff_getElem.mp known
  have bit : (word bits : BitVec width).getLsbD (width - 1 - i) = bits.getD (width - 1 - (width - 1 - i)) false :=
    word_bit bits (width - 1 - i) (by omega)
  have index : width - 1 - (width - 1 - i) = i := by omega
  rw [zero, index, List.getD_eq_getElem _ _ inside, at_i] at bit
  simp at bit

-- The bits of a stream that are set lie in one window as wide as the register.
def InWindow (width start : Nat) (bits : List Bool) : Prop :=
  ∀ i, bits[i]? = some true → start ≤ i ∧ i < start + width

theorem in_window_iff (width start : Nat) (bits : List Bool) :
    InWindow width start bits ↔ ∀ i < bits.length, bits[i]? = some true → start ≤ i ∧ i < start + width := by
  refine ⟨fun window i _ => window i, fun window i set => window i ?_ set⟩
  exact (List.getElem?_eq_some_iff.mp set).1

instance (width start : Nat) (bits : List Bool) : Decidable (InWindow width start bits) :=
  decidable_of_iff _ (in_window_iff width start bits).symm

theorem eq_zeros (bits : List Bool) (unset : true ∉ bits) : bits = List.replicate bits.length false := by
  rw [List.eq_replicate_iff]
  refine ⟨rfl, fun bit known => ?_⟩
  cases bit with
  | false => rfl
  | true => exact absurd known unset

-- A burst no wider than the register never leads back to the register without it.
theorem burst_detected (odd : polynomial.getLsbD 0 = true) (bits : List Bool) (start : Nat)
    (window : InWindow width start bits) (set : true ∈ bits) : run polynomial (BitVec.ofNat width 0) bits ≠ (BitVec.ofNat width 0) := by
  intro zero
  have early : true ∉ bits.take start := by
    intro known
    obtain ⟨i, at_i⟩ := List.mem_iff_getElem?.mp known
    rw [List.getElem?_take] at at_i
    split at at_i
    · have := (window i at_i).1
      omega
    · cases at_i
  have late : true ∉ (bits.drop start).drop width := by
    intro known
    obtain ⟨i, at_i⟩ := List.mem_iff_getElem?.mp known
    rw [List.getElem?_drop, List.getElem?_drop] at at_i
    have := (window _ at_i).2
    omega
  have burst : true ∉ (bits.drop start).take width := by
    have short : ((bits.drop start).take width).length ≤ width := List.length_take_le _ _
    refine all_false_of_word _ short ?_
    rw [← List.take_append_drop start bits, ← List.take_append_drop width (bits.drop start), run_append, run_append,
      eq_zeros _ early, run_zeros, iterate_shift_zero, eq_zeros _ late, run_zeros] at zero
    have inner := eq_zero_of_iterate polynomial odd _ _ zero
    exact ((run_eq_zero_iff polynomial odd _ _ short).mp inner).symm
  rw [← List.take_append_drop start bits, ← List.take_append_drop width (bits.drop start)] at set
  rcases List.mem_append.mp set with first | rest
  · exact early first
  · rcases List.mem_append.mp rest with middle | last
    · exact burst middle
    · exact late last

end Crc
